/-
# Lanes of a vector

A vector is 128 bits.  It can be read as 16 lanes of 8 bits, 8 of 16, 4 of 32 or
2 of 64; lane 0 holds the lowest bits, and in memory the lowest byte comes
first.  Every operation here is built from `lane`, which reads one lane, and
`ofLanes`, which puts a vector together from a function of the lane number.
-/

import WasmMachine.Numeric.Power

namespace WasmMachine

/-- A 128-bit vector. -/
abbrev V128 := BitVec 128

/-- The width of the lanes a vector is read with. -/
inductive LaneWidth
  | w8
  | w16
  | w32
  | w64
  deriving DecidableEq, Repr

namespace LaneWidth

/-- The width in bits. -/
def bits : LaneWidth → Nat
  | .w8 => 8
  | .w16 => 16
  | .w32 => 32
  | .w64 => 64

/-- The number of lanes of this width. -/
def count : LaneWidth → Nat
  | .w8 => 16
  | .w16 => 8
  | .w32 => 4
  | .w64 => 2

/-- The width in bytes. -/
def bytes (w : LaneWidth) : Nat := w.bits / 8

/-- The next larger width; the largest has none and stays itself. -/
def double : LaneWidth → LaneWidth
  | .w8 => .w16
  | .w16 => .w32
  | .w32 => .w64
  | .w64 => .w64

end LaneWidth

namespace V128

/-- Lane `i` of width `w`. -/
def lane (v : V128) (w i : Nat) : BitVec w := v.extractLsb' (i * w) w

/-- The vector whose lane `i` of width `w` is `f i`, for the first `n` lanes; the
other bits are zero. -/
def ofLanes (w n : Nat) (f : Nat → BitVec w) : V128 :=
  (List.range n).foldl (fun v i => v ||| ((f i).setWidth 128 <<< (i * w))) 0

/-- Replace lane `i`, leaving the other lanes. -/
def setLane (v : V128) (w n i : Nat) (x : BitVec w) : V128 :=
  ofLanes w n fun j => if j = i then x else v.lane w j

/-- The vector of sixteen bytes in memory order; missing bytes are zero. -/
def ofBytes (bytes : List UInt8) : V128 :=
  ofLanes 8 16 fun i => (bytes.getD i 0).toBitVec

/-- The sixteen bytes in memory order. -/
def toBytes (v : V128) : List UInt8 :=
  (List.range 16).map fun i => UInt8.ofBitVec (v.lane 8 i)

/-- The low 64 bits. -/
def low (v : V128) : UInt64 := UInt64.ofBitVec (v.lane 64 0)

/-- The high 64 bits. -/
def high (v : V128) : UInt64 := UInt64.ofBitVec (v.lane 64 1)

/-- The same bits in every lane. -/
def splat (w : LaneWidth) (x : BitVec w.bits) : V128 :=
  ofLanes w.bits w.count fun _ => x

/-- Lane-wise addition that wraps around. -/
def add (w : LaneWidth) (a b : V128) : V128 :=
  ofLanes w.bits w.count fun i => a.lane w.bits i + b.lane w.bits i

/-- Lane-wise subtraction that wraps around. -/
def sub (w : LaneWidth) (a b : V128) : V128 :=
  ofLanes w.bits w.count fun i => a.lane w.bits i - b.lane w.bits i

/-- Whether no lane is zero. -/
def allTrue (w : LaneWidth) (v : V128) : Bool :=
  (List.range w.count).all fun i => v.lane w.bits i != 0

/-- Whether some bit is set. -/
def anyTrue (v : V128) : Bool := v != 0

/-- The top bits of the lanes as a number, lane 0 in bit 0. -/
def bitmask (w : LaneWidth) (v : V128) : UInt32 :=
  (List.range w.count).foldl
    (fun mask i => if (v.lane w.bits i).msb then mask ||| (1 <<< UInt32.ofNat i) else mask) 0

/-- The bits of `a` where `c` is set and the bits of `b` elsewhere. -/
def bitselect (a b c : V128) : V128 := (a &&& c) ||| (b &&& ~~~c)

/-- Bytes of `a` chosen by the bytes of `s`; an index past the end gives zero. -/
def swizzle (a s : V128) : V128 :=
  ofLanes 8 16 fun i =>
    let index := (s.lane 8 i).toNat
    if index < 16 then a.lane 8 index else 0

/-- Bytes chosen from `a` followed by `b`; an index past both gives zero. -/
def shuffle (a b indices : V128) : V128 :=
  ofLanes 8 16 fun i =>
    let index := (indices.lane 8 i).toNat
    if index < 16 then a.lane 8 index
    else if index < 32 then b.lane 8 (index - 16)
    else 0

/-- The least and greatest number that a lane of `w` bits can hold. -/
def laneRange (signed : Bool) (w : Nat) : Int × Int :=
  if signed then (-(2 ^ (w - 1) : Nat), (2 ^ (w - 1) : Nat) - 1) else (0, (2 ^ w : Nat) - 1)

/-- Move a number to the nearest end of a range it lies outside of. -/
def clamp (range : Int × Int) (x : Int) : Int := max range.1 (min range.2 x)

/-- The lanes of `a` then `b`, of twice the width and read as signed numbers,
brought into the signed or unsigned range of the target width. -/
def narrow (target : LaneWidth) (signed : Bool) (a b : V128) : V128 :=
  let from_ := 2 * target.bits
  let n := target.count / 2
  ofLanes target.bits target.count fun i =>
    let x := if i < n then (a.lane from_ i).toInt else (b.lane from_ (i - n)).toInt
    BitVec.ofInt target.bits (clamp (laneRange signed target.bits) x)

/-- The low or the high half of the lanes, widened to twice their width. -/
def extend (from_ : LaneWidth) (high signed : Bool) (v : V128) : V128 :=
  let n := from_.count / 2
  let base := if high then n else 0
  ofLanes (2 * from_.bits) n fun i =>
    let x := v.lane from_.bits (base + i)
    if signed then x.signExtend (2 * from_.bits) else x.setWidth (2 * from_.bits)

end V128

end WasmMachine
