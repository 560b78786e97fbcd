/-
# What a registry keeps

The registry of host functions is told here against the log of all registrations.  What
counts is the latest registration of a namespace and a name; the registry has exactly those,
and a namespace with a registration that is not bound yet is pending.
-/

import Mathlib.Data.List.Induction
import WasmMachine.Host.Registry

namespace WasmMachine

/-- A function that is registered under a namespace. -/
abbrev Registration := String × HostFunction

namespace Registration

variable {log more : List Registration} {ns ns' : String} {f g : HostFunction}

/-- The last registration of a namespace and a name, of all that are in a log. -/
def Latest (log : List Registration) (ns : String) (f : HostFunction) : Prop :=
  ∃ before after, log = before ++ (ns, f) :: after ∧
    ∀ r ∈ after, ¬ (r.1 = ns ∧ r.2.name = f.name)

theorem not_latest_nil : ¬ Latest [] ns f := by
  rintro ⟨before, after, same, -⟩
  simp at same

theorem Latest.mem (latest : Latest log ns f) : (ns, f) ∈ log := by
  obtain ⟨before, after, rfl, -⟩ := latest
  exact List.mem_append_right before List.mem_cons_self

theorem latest_concat : Latest (log ++ [(ns', g)]) ns f ↔
    (ns, f) = (ns', g) ∨ Latest log ns f ∧ ¬ (ns' = ns ∧ g.name = f.name) := by
  constructor
  · rintro ⟨before, after, same, last⟩
    cases after using List.reverseRecOn with
    | nil => exact .inl (List.singleton_inj.mp (List.append_inj_right' same rfl)).symm
    | append_singleton after r _ =>
        rw [← List.cons_append, ← List.append_assoc] at same
        obtain ⟨rfl, inner⟩ := List.append_inj' same rfl
        cases List.singleton_inj.mp inner
        refine .inr ⟨⟨before, after, rfl, fun r mem => last r ?_⟩, last (ns', g) ?_⟩
        · exact List.mem_append_left _ mem
        · exact List.mem_append_right _ List.mem_cons_self
  · rintro (same | ⟨⟨before, after, rfl, last⟩, other⟩)
    · exact ⟨log, [], by rw [same], fun r mem => absurd mem List.not_mem_nil⟩
    · refine ⟨before, after ++ [(ns', g)], by simp, fun r mem => ?_⟩
      rcases List.mem_append.mp mem with old | new
      · exact last r old
      · cases List.mem_singleton.mp new
        exact other

/-- Registrations in other namespaces are of no account. -/
theorem latest_append_other (others : ∀ r ∈ more, r.1 ≠ ns) :
    Latest (log ++ more) ns f ↔ Latest log ns f := by
  induction more using List.reverseRecOn with
  | nil => rw [List.append_nil]
  | append_singleton more r ih =>
      obtain ⟨ns', g⟩ := r
      have other : ns' ≠ ns := others (ns', g) (by simp)
      rw [← List.append_assoc, latest_concat, ih fun r mem => others r (List.mem_append_left _ mem)]
      constructor
      · rintro (same | ⟨latest, -⟩)
        · cases same
          exact absurd rfl other
        · exact latest
      · exact fun latest => .inr ⟨latest, fun both => other both.1⟩

/-- Of a namespace and a name there is one last registration. -/
theorem Latest.unique (first : Latest log ns f) (second : Latest log ns g)
    (same : f.name = g.name) : f = g := by
  induction log using List.reverseRecOn with
  | nil => exact absurd first not_latest_nil
  | append_singleton log r ih =>
      obtain ⟨ns', h⟩ := r
      rcases latest_concat.mp first with here | ⟨first, other⟩
      · cases here
        rcases latest_concat.mp second with here | ⟨-, other⟩
        · cases here
          rfl
        · exact absurd ⟨rfl, same⟩ other
      · rcases latest_concat.mp second with here | ⟨second, -⟩
        · cases here
          exact absurd ⟨rfl, same.symm⟩ other
        · exact ih first second

end Registration

open Registration

/-! ## Names in order -/

theorem sortNames_perm (names : List String) : (sortNames names).Perm names :=
  List.mergeSort_perm names _

theorem pairwise_sortNames (names : List String) : (sortNames names).Pairwise (· ≤ ·) := by
  have sorted := @List.pairwise_mergeSort String (fun a b => !(b < a))
    (fun a b c first second => ?_) (fun a b => ?_) names
  · refine sorted.imp fun before => ?_
    simpa only [Bool.not_eq_true', decide_eq_false_iff_not, String.not_lt] using before
  · simp only [Bool.not_eq_true', decide_eq_false_iff_not, String.not_lt] at first second ⊢
    exact String.le_trans first second
  · simp only [Bool.or_eq_true, Bool.not_eq_true', decide_eq_false_iff_not, String.not_lt]
    exact String.le_total _ _

/-- Distinct names that are sorted ascend. -/
theorem pairwise_lt_sortNames {names : List String} (distinct : names.Nodup) :
    (sortNames names).Pairwise (· < ·) := by
  have unlike : (sortNames names).Pairwise (· ≠ ·) :=
    (sortNames_perm names).nodup_iff.mpr distinct
  refine (pairwise_sortNames names).imp₂ (fun a b before differ => ?_) unlike
  exact Decidable.not_not.mp fun above =>
    differ (String.le_antisymm before (String.not_lt.mp above))

namespace HostRegistry

variable {r : HostRegistry} {log more : List Registration} {ns ns' : String} {f g : HostFunction}

/-! ## Registering -/

/-- Register what a list says, one after the other. -/
def putAll (r : HostRegistry) (registrations : List Registration) : HostRegistry :=
  registrations.foldl (fun r entry => r.put entry.1 entry.2) r

/-- A registry has the last registration of each namespace and name, and no other; what is
pending is listed once. -/
structure Keeps (r : HostRegistry) (log : List Registration) : Prop where
  functions : ∀ ns f, (ns, f) ∈ r.functions ↔ Latest log ns f
  pending : r.pending.Nodup

theorem keeps_empty : Keeps {} [] where
  functions _ _ := ⟨fun mem => absurd mem List.not_mem_nil, fun latest => absurd latest not_latest_nil⟩
  pending := List.nodup_nil

theorem mem_pending_put : ns ∈ (r.put ns' g).pending ↔ ns ∈ r.pending ∨ ns = ns' := by
  unfold put
  by_cases there : ns' ∈ r.pending
  · simp only [List.contains_eq_mem, there, decide_true, if_true]
    exact ⟨.inl, fun is => is.elim id fun same => same ▸ there⟩
  · simp [there]

theorem Keeps.put (keeps : r.Keeps log) (ns' : String) (g : HostFunction) :
    (r.put ns' g).Keeps (log ++ [(ns', g)]) where
  functions ns f := by
    rw [latest_concat, ← keeps.functions]
    unfold HostRegistry.put
    have kept : (!(ns == ns' && f.name == g.name)) = true ↔ ¬ (ns' = ns ∧ g.name = f.name) := by
      rw [Bool.not_eq_true', ← Bool.not_eq_true, Bool.and_eq_true, beq_iff_eq, beq_iff_eq,
        eq_comm, @eq_comm _ f.name]
    rw [List.mem_append, List.mem_singleton, or_comm, List.mem_filter, kept]
  pending := by
    unfold HostRegistry.put
    split
    · exact keeps.pending
    · next absent =>
        refine List.nodup_append.mpr ⟨keeps.pending, by simp, ?_⟩
        intro old mem new mem' same
        cases List.mem_singleton.mp mem'
        exact absent (by simpa [same] using mem)

theorem Keeps.putAll (keeps : r.Keeps log) (more : List Registration) :
    (r.putAll more).Keeps (log ++ more) := by
  induction more generalizing r log with
  | nil => rwa [List.append_nil]
  | cons entry more ih =>
      obtain ⟨ns, f⟩ := entry
      have := ih (keeps.put ns f)
      rwa [List.append_assoc] at this

theorem mem_pending_putAll :
    ns ∈ (r.putAll more).pending ↔ ns ∈ r.pending ∨ ∃ entry ∈ more, entry.1 = ns := by
  induction more generalizing r with
  | nil => simp [putAll]
  | cons entry more ih =>
      refine Iff.trans ih ?_
      rw [mem_pending_put, or_assoc]
      simp [eq_comm]

/-- The methods of an object that are registered: those before the first that is refused. -/
def adapted (ns : String) : List (String × Handler) → List Registration
  | [] => []
  | (name, h) :: rest =>
      match h.adapt name with
      | .ok f => (ns, f) :: adapted ns rest
      | .error _ => []

theorem registerAll_eq (ns : String) (methods : List (String × Handler)) (r : HostRegistry) :
    (registerAll ns methods r).1 = r.putAll (adapted ns methods) := by
  induction methods generalizing r with
  | nil => rfl
  | cons method rest ih =>
      obtain ⟨name, h⟩ := method
      unfold registerAll adapted
      cases h.adapt name with
      | error fault => rfl
      | ok f => exact ih (r.put ns f)

/-! ## Reading the registry -/

theorem mem_functionsOf : f ∈ r.functionsOf ns ↔ (ns, f) ∈ r.functions := by
  unfold functionsOf
  rw [List.mem_mergeSort, List.mem_map]
  constructor
  · rintro ⟨⟨ns', f'⟩, mem, rfl⟩
    obtain ⟨there, same⟩ := List.mem_filter.mp mem
    obtain rfl : ns' = ns := beq_iff_eq.mp same
    exact there
  · exact fun mem => ⟨(ns, f), List.mem_filter.mpr ⟨mem, beq_iff_eq.mpr rfl⟩, rfl⟩

theorem Keeps.mem_functionsOf (keeps : r.Keeps log) : f ∈ r.functionsOf ns ↔ Latest log ns f :=
  HostRegistry.mem_functionsOf.trans (keeps.functions ns f)

theorem mem_pendingNamespaces : ns ∈ r.pendingNamespaces ↔ ns ∈ r.pending :=
  (sortNames_perm r.pending).mem_iff

theorem Keeps.pairwise_pendingNamespaces (keeps : r.Keeps log) :
    r.pendingNamespaces.Pairwise (· < ·) := pairwise_lt_sortNames keeps.pending

end HostRegistry

/-! ## The ways to register -/

/-- What an embedder asks a registry for. -/
inductive Registering
  | handler (ns name : String) (h : Handler)
  | function (ns name : String) (type : FuncType) (behaviour : Option HostBehaviour)
  | object (host : HostObject)

namespace Registering

/-- The registry afterwards, whether the registration was accepted or not. -/
def run (r : HostRegistry) : Registering → HostRegistry
  | .handler ns name h => (r.registerHandler ns name h).toOption.getD r
  | .function ns name type behaviour => (r.registerFunction ns name type behaviour).toOption.getD r
  | .object host => (r.registerObject host).1

/-- The registrations that are accepted. Empty names are refused, and so is a handler that no
signature can be given to. -/
def accepted : Registering → List Registration
  | .handler ns name h =>
      if ns = "" ∨ name = "" then [] else HostRegistry.adapted ns [(name, h)]
  | .function ns name type behaviour =>
      if ns = "" ∨ name = "" then [] else [(ns, ⟨name, type, behaviour⟩)]
  | .object host =>
      if host.ns = "" then []
      else
        HostRegistry.adapted host.ns
          ((host.methods.mergeSort fun a b => !(b.1 < a.1)).map fun (name, h) =>
            (Text.snakeCase name, h))

/-- Registering is to put what is accepted. -/
theorem run_eq (r : HostRegistry) (request : Registering) :
    request.run r = r.putAll request.accepted := by
  cases request with
  | handler ns name h =>
      simp only [run, accepted, HostRegistry.registerHandler, HostRegistry.adapted]
      by_cases empty : ns = ""
      · rw [if_pos empty, if_pos (.inl empty)]
        rfl
      · by_cases blank : name = ""
        · rw [if_neg empty, if_pos blank, if_pos (.inr blank)]
          rfl
        · rw [if_neg empty, if_neg blank, if_neg (not_or.mpr ⟨empty, blank⟩)]
          cases h.adapt name with
          | error fault => rfl
          | ok f => rfl
  | function ns name type behaviour =>
      simp only [run, accepted, HostRegistry.registerFunction]
      split
      · rfl
      · rfl
  | object host =>
      simp only [run, accepted, HostRegistry.registerObject]
      split
      · rfl
      · rw [HostRegistry.registerAll_eq]

end Registering

end WasmMachine
