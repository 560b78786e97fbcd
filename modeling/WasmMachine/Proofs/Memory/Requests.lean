/-
# What a request to a view does

An embedder, or a host function, asks a view to read, to write or to let the memory grow.
Whatever is asked, and whether or not it is granted, the store is left alone, or bytes are
written to a memory, or a memory grows that has room.
-/

import WasmMachine.Store.View

namespace WasmMachine

/-- What the use of a view does to a store: nothing, or it writes to a memory, or it lets one
grow that has room. -/
inductive Store.Viewed (s : Store) : Store → Prop
  | same : Viewed s s
  | write (addr : Addr) (start : Nat) (bytes : List UInt8) :
      Viewed s (s.writeMemory addr start bytes)
  | grow {addr : Addr} {m : MemInst} {count : Nat} :
      s.memories[addr]? = some m → m.mayGrow count = true → Viewed s (s.growMemory addr count)

namespace MemoryView

variable {view : MemoryView} {s s' : Store}

theorem viewed_of_write {offset : UInt32} {bytes : List UInt8}
    (written : view.write s offset bytes = .ok s') : s.Viewed s' := by
  simp only [write] at written
  cases inside : view.read s offset (UInt32.ofNat bytes.length) with
  | error t =>
      rw [inside] at written
      cases written
  | ok old =>
      rw [inside] at written
      cases written
      exact .write _ _ _

theorem viewed_of_grow {count : UInt32} {old : Nat} (grown : view.grow s count = some (old, s')) :
    s.Viewed s' := by
  unfold grow at grown
  split at grown
  · cases grown
  · next m found =>
      split at grown
      · next room =>
          cases grown
          exact .grow found room
      · cases grown

theorem ask_viewed (view : MemoryView) (s : Store) (request : ViewRequest) :
    s.Viewed (view.ask s request).2 := by
  fun_cases ask view s request with
  | case1 => exact .same
  | case2 offset length found _ => exact .same
  | case3 offset length t _ => exact .same
  | case4 offset bytes s' written => exact viewed_of_write written
  | case5 offset bytes t _ => exact .same
  | case6 pages old s' grown => exact viewed_of_grow grown
  | case7 pages _ => exact .same

end MemoryView

theorem Store.useView_viewed (s : Store) (names : List (String × InstanceId))
    (inst memory : String) (request : ViewRequest) :
    s.Viewed (s.useView names inst memory request).2 := by
  unfold useView
  split
  · exact MemoryView.ask_viewed _ s request
  · exact .same

end WasmMachine
