/-
# Binding pending namespaces

A pass makes an instance of each pending namespace in order, and takes the namespace off the
pending ones once its instance has the name.  At the first namespace with a function that
has no implementation the pass ends: what came before it is bound, it and what comes behind
it stay pending, and the store has what the bound namespaces needed and nothing else.
-/

import WasmMachine.Embedding.Basic
import WasmMachine.Proofs.Embedding.Offering
import WasmMachine.Proofs.Embedding.Registry

namespace WasmMachine

open Registration

theorem Linker.lookup?_register (l : Linker) (name other : String) (id : InstanceId) :
    (l.register name id).lookup? other = if other = name then some id else l.lookup? other :=
  lookup_replaced l.registry name other id

namespace Store

variable {s : Store}

/-- A store with further functions and instances behind those that it has. -/
def withHosts (s : Store) (funcs : List FuncInst) (made : List ModuleInstance) : Store :=
  { s.withFuncs funcs with instances := s.instances ++ made.toArray }

theorem withHosts_nil (s : Store) : s.withHosts [] [] = s := by
  unfold withHosts
  rw [withFuncs_nil, Array.append_empty]

theorem withHosts_append (s : Store) (funcs funcs' : List FuncInst)
    (made made' : List ModuleInstance) : (s.withHosts funcs made).withHosts funcs' made' =
      s.withHosts (funcs ++ funcs') (made ++ made') := by
  simp [withHosts, withFuncs]

theorem addInstance_withFuncs (s : Store) (funcs : List FuncInst) (inst : ModuleInstance) :
    ((s.withFuncs funcs).addInstance inst).2 = s.withHosts funcs [inst] := by
  unfold addInstance withHosts
  rw [Array.push_eq_append]
  rfl

theorem extends_withHosts (s : Store) (funcs : List FuncInst) (made : List ModuleInstance) :
    s.Extends (s.withHosts funcs made) :=
  { Extends.refl s with
    toRetains := { Retains.refl s with funcs := s.persists_withFuncs funcs }
    instances := by
      intro id inst found
      obtain ⟨inside, -⟩ := Array.getElem?_eq_some_iff.mp found
      exact ⟨inst, (Array.getElem?_append_left inside).trans found, rfl⟩ }

end Store

namespace Embedding

variable {e e' e₁ e₂ : Embedding} {ns : String} {Given : HostFunction → Prop} {names more : List String}

/-- The linker has an instance under the name of a namespace, and it exports the functions
that are given and nothing else. -/
def Offers (e : Embedding) (ns : String) (Given : HostFunction → Prop) : Prop :=
  ∃ id inst, e.linker.lookup? ns = some id ∧ e.instance? id = some inst ∧
    inst.Provides e.store ns Given

theorem Offers.keep (offers : e.Offers ns Given) (ext : e.store.Extends e'.store)
    (named : e'.linker.lookup? ns = e.linker.lookup? ns) : e'.Offers ns Given := by
  obtain ⟨id, inst, held, found, provides⟩ := offers
  obtain ⟨_, found', rfl⟩ := ext.instances id inst found
  exact ⟨id, inst, named.trans held, found', provides.keep ext.funcs⟩

/-! ## Passes -/

/-- The functions that are added to the store for namespaces. -/
def hostCodes (e : Embedding) (names : List String) : List FuncInst :=
  names.flatMap fun ns => (e.hosts.functionsOf ns).map (·.code ns)

/-- What a pass over namespaces leaves behind: each of them is offered and none is pending,
and nothing else has changed but for what was added to the store for them. -/
structure Pass (names : List String) (e e' : Embedding) : Prop where
  functions : e'.hosts.functions = e.hosts.functions
  pending : ∀ ns, ns ∈ e'.hosts.pending ↔ ns ∈ e.hosts.pending ∧ ns ∉ names
  distinct : e.hosts.pending.Nodup → e'.hosts.pending.Nodup
  offers : ∀ ns ∈ names, e'.Offers ns (· ∈ e.hosts.functionsOf ns)
  others : ∀ ns, ns ∉ names → e'.linker.lookup? ns = e.linker.lookup? ns
  store : ∃ made : List ModuleInstance, made.map (·.name) = names ∧
    e'.store = e.store.withHosts (e.hostCodes names) made

namespace Pass

theorem functionsOf_eq (pass : Pass names e e') (ns : String) :
    e'.hosts.functionsOf ns = e.hosts.functionsOf ns := by
  unfold HostRegistry.functionsOf
  rw [pass.functions]

theorem hostCodes_eq (pass : Pass names e e') (more : List String) :
    e'.hostCodes more = e.hostCodes more := by
  unfold hostCodes
  simp only [pass.functionsOf_eq]

theorem store_extends (pass : Pass names e e') : e.store.Extends e'.store := by
  obtain ⟨made, -, same⟩ := pass.store
  rw [same]
  exact e.store.extends_withHosts _ made

theorem refl (e : Embedding) : Pass [] e e where
  functions := rfl
  pending _ := ⟨fun mem => ⟨mem, List.not_mem_nil⟩, fun both => both.1⟩
  distinct := id
  offers _ mem := absurd mem List.not_mem_nil
  others _ _ := rfl
  store := ⟨[], rfl, e.store.withHosts_nil.symm⟩

theorem trans (first : Pass names e e₁) (second : Pass more e₁ e₂) : Pass (names ++ more) e e₂ where
  functions := second.functions.trans first.functions
  pending ns := by
    rw [second.pending, first.pending, List.mem_append, not_or, and_assoc]
  distinct distinct := second.distinct (first.distinct distinct)
  offers ns mem := by
    by_cases later : ns ∈ more
    · exact first.functionsOf_eq ns ▸ second.offers ns later
    · have early : ns ∈ names := (List.mem_append.mp mem).resolve_right later
      exact (first.offers ns early).keep second.store_extends (second.others ns later)
  others ns absent := by
    obtain ⟨early, later⟩ := not_or.mp fun mem => absent (List.mem_append.mpr mem)
    exact (second.others ns later).trans (first.others ns early)
  store := by
    obtain ⟨made, named, same⟩ := first.store
    obtain ⟨made', named', same'⟩ := second.store
    refine ⟨made ++ made', by rw [List.map_append, named, named'], ?_⟩
    rw [same', same, Store.withHosts_append, first.hostCodes_eq]
    simp only [hostCodes, List.flatMap_append]

end Pass

/-- No two functions of a namespace have the same name. -/
def Named (e : Embedding) : Prop :=
  ∀ ns, ∀ f ∈ e.hosts.functionsOf ns, ∀ g ∈ e.hosts.functionsOf ns, f.name = g.name → f = g

/-- A function of a namespace that cannot be bound, and what the pass then reports. -/
def Lacks (e : Embedding) (ns : String) (f : HostFunction) (failure : Failure) : Prop :=
  f ∈ e.hosts.functionsOf ns ∧ f.behaviour = none ∧
    failure = .fault (LinkError.hostFunction ns f.name).toFault

theorem Named.pass (named : e.Named) (pass : Pass names e e') : e'.Named := by
  intro ns
  rw [pass.functionsOf_eq]
  exact named ns

end Embedding

namespace Embed

open WasmMachine.Embedding

variable {e : Embedding}

/-- An action of the linker leaves the rest of an embedding alone. -/
theorem onLinker_ends {α : Type} {action : Link α} {Good : α → Linker → Prop}
    {Bad : LinkStop → Linker → Prop} (ends : Ends action e.linker Good Bad) :
    Ends (onLinker action) e (fun a e' => Good a e'.linker ∧ e' = { e with linker := e'.linker })
      fun failure e' => ∃ stop, failure = stop.failure ∧ Bad stop e'.linker ∧
        e' = { e with linker := e'.linker } := by
  obtain ⟨linker, hosts, options⟩ := e
  unfold Ends at ends
  unfold Ends onLinker
  cases ran : action linker with
  | ok a l' =>
      rw [ran] at ends
      simp only [ran]
      exact ⟨ends, trivial⟩
  | error stop l' =>
      rw [ran] at ends
      simp only [ran]
      exact ⟨stop, rfl, ends, trivial⟩

/-- Binding one namespace is a pass over it, or does nothing. -/
theorem bindNamespace_ends (ns : String) (named : e.Named) :
    Ends (discard (onLinker (Link.hostModule ns
        ((e.hosts.functionsOf ns).map HostFunction.definition)))) e
      (fun _ e' => Pass [ns] e { e' with hosts := e'.hosts.bound ns })
      fun failure e' => e' = e ∧ ∃ f, e.Lacks ns f failure := by
  refine Ends.discard (Ends.mono
    (onLinker_ends (Link.hostModule_functions ns e.linker (named ns))) ?_ ?_)
  · rintro id e' ⟨⟨-, inst, called, provides, rfl, linker⟩, same⟩
    have store : e'.store =
        e.store.withHosts ((e.hosts.functionsOf ns).map (·.code ns)) [inst] := by
      unfold Embedding.store
      rw [linker]
      exact Store.addInstance_withFuncs _ _ inst
    have looked : ∀ ns', e'.linker.lookup? ns' =
        if ns' = ns then some e.store.instances.size else e.linker.lookup? ns' := by
      intro ns'
      rw [linker, Linker.lookup?_register]
      rfl
    rw [same]
    exact {
      functions := rfl
      pending := fun ns' => by
        show ns' ∈ e.hosts.pending.filter _ ↔ _
        rw [List.mem_filter, List.mem_singleton, bne_iff_ne]
      distinct := fun distinct => distinct.filter _
      offers := by
        refine List.forall_mem_singleton.mpr ⟨e.store.instances.size, inst, ?_, ?_, provides⟩
        · rw [looked, if_pos rfl]
        · show e'.store.instances[_]? = _
          rw [store]
          simp [Store.withHosts]
      others := fun ns' other => by
        rw [looked, if_neg fun same => other (List.mem_singleton.mpr same)]
      store := ⟨[inst], by rw [List.map_singleton, called], by
        unfold hostCodes
        rw [List.flatMap_singleton]
        exact store⟩ }
  · rintro failure e' ⟨stop, rfl, ⟨linker, f, mem, lacking, rfl⟩, same⟩
    rw [linker] at same
    exact ⟨same, f, mem, lacking, rfl⟩

/-- A pass goes on to the first namespace that cannot be bound. -/
theorem bindNamespaces_ends (names : List String) (named : e.Named) :
    Ends (bindNamespaces names) e (fun _ e' => Pass names e e')
      fun failure e' => ∃ done ns later f, names = done ++ ns :: later ∧ Pass done e e' ∧
        e.Lacks ns f failure := by
  induction names generalizing e with
  | nil => exact Ends.pure (.refl e)
  | cons ns rest ih =>
      unfold bindNamespaces
      apply Ends.step (get_eq e)
      refine Ends.bind (Ends.mono (bindNamespace_ends ns named) (fun _ _ => id) ?_) ?_
      · rintro failure e' ⟨rfl, f, lacks⟩
        exact ⟨[], ns, rest, f, rfl, .refl e', lacks⟩
      · intro _ e₁ first
        apply Ends.step rfl
        refine Ends.mono (ih (named.pass first)) (fun _ e₂ second => first.trans second) ?_
        rintro failure e₂ ⟨done, ns', later, f, rfl, second, mem, lacking⟩
        refine ⟨ns :: done, ns', later, f, rfl, first.trans second, ?_, lacking⟩
        exact first.functionsOf_eq ns' ▸ mem

end Embed

end WasmMachine
