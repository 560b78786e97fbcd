/-
# No registration is lost

An embedder registers functions and instantiates modules in any order.  Registering marks
the namespace as pending, and the next instantiation binds what is pending before it links
the module; a binding that stops leaves the rest for the next one.  Whatever the order, once
a binding has succeeded each namespace offers the last registration of every name and
nothing else, unless a module has been given the name of the namespace since.
-/

import WasmMachine.Proofs.Embedding.Binding
import WasmMachine.Proofs.Evolution.Operations

namespace WasmMachine

open Registration

namespace Embedding

/-! ## Requests -/

/-- What an embedder asks for. -/
inductive Request
  | register (what : Registering)
  | instantiate (fuel : Nat) (m : Module) (name : String)

/-- What a request leaves behind, whether it is granted or not. -/
def Request.run (e : Embedding) : Request → Embedding
  | .register what => { e with hosts := what.run e.hosts }
  | .instantiate fuel m name => after (Embed.instantiate fuel m name) e

/-- The registrations that are accepted with a request. -/
def Request.accepted : Request → List Registration
  | .register what => what.accepted
  | .instantiate _ _ _ => []

/-- The embedding behind requests, from a fresh one on. -/
def reached (options : Options) (requests : List Request) : Embedding :=
  requests.foldl Request.run (.new options)

/-- All registrations that were accepted, in order. -/
def registrations (requests : List Request) : List Registration :=
  requests.flatMap Request.accepted

/-- A module has been instantiated under the name of a namespace, and nothing has been
registered in the namespace since. -/
def Taken (options : Options) (requests : List Request) (ns : String) : Prop :=
  ∃ before fuel m later, requests = before ++ Request.instantiate fuel m ns :: later ∧
    (∃ id, outcome (Embed.instantiate fuel m ns) (reached options before) = .ok id) ∧
    ∀ r ∈ later, ∀ entry ∈ r.accepted, entry.1 ≠ ns

/-- Everything that is registered is bound: nothing is pending, and each namespace that is not
taken offers the last registration of every name and nothing else. -/
structure Settled (options : Options) (requests : List Request) (e : Embedding) : Prop where
  pending : e.hosts.pending = []
  offers : ∀ ns f, Latest (registrations requests) ns f → ¬ Taken options requests ns →
    e.Offers ns (Latest (registrations requests) ns)

/-- Binding has stopped at a namespace. Of the pending ones, in order, those before it are
bound; it and those behind it are pending; and what has come to the store are the functions
and instances of those before it. -/
structure Halted (log : List Registration) (done : List String) (ns : String)
    (later : List String) (e e' : Embedding) : Prop where
  split : e.hosts.pendingNamespaces = done ++ ns :: later
  before : ∀ ns' ∈ done, ns' < ns
  behind : ∀ ns' ∈ later, ns < ns'
  bound : ∀ ns' ∈ done, ns' ∉ e'.hosts.pending ∧ e'.Offers ns' (Latest log ns')
  pending : ∀ ns', ns' ∈ e'.hosts.pending ↔ ns' = ns ∨ ns' ∈ later
  store : ∃ made : List ModuleInstance, made.map (·.name) = done ∧
    e'.store = e.store.withHosts (e.hostCodes done) made

/-! ## What every request keeps -/

/-- The registry has the last registrations, and those that are not pending are offered, but
for some namespaces. -/
structure Tracks (log : List Registration) (Exempt : String → Prop) (e : Embedding) : Prop where
  keeps : e.hosts.Keeps log
  offers : ∀ ns f, Latest log ns f → ns ∉ e.hosts.pending →
    Exempt ns ∨ e.Offers ns (Latest log ns)

namespace Tracks

variable {log more : List Registration} {Exempt Exempt' : String → Prop} {e e' : Embedding}
  {names : List String}

theorem mono (tracks : e.Tracks log Exempt) (wider : ∀ ns, Exempt ns → Exempt' ns) :
    e.Tracks log Exempt' where
  keeps := tracks.keeps
  offers ns f latest settled := (tracks.offers ns f latest settled).imp_left (wider ns)

theorem named (tracks : e.Tracks log Exempt) : e.Named := by
  intro ns f mem g mem'
  rw [tracks.keeps.mem_functionsOf] at mem mem'
  exact mem.unique mem'

/-- After registrations their namespaces are pending, and the others are as they were. -/
theorem putAll (tracks : e.Tracks log Exempt)
    (wider : ∀ ns, (∀ entry ∈ more, entry.1 ≠ ns) → Exempt ns → Exempt' ns) :
    Tracks (log ++ more) Exempt' { e with hosts := e.hosts.putAll more } where
  keeps := tracks.keeps.putAll more
  offers ns f latest settled := by
    obtain ⟨settled, others⟩ := not_or.mp fun is => settled (HostRegistry.mem_pending_putAll.mpr is)
    have others : ∀ entry ∈ more, entry.1 ≠ ns := fun entry mem same => others ⟨entry, mem, same⟩
    have same : Latest (log ++ more) ns = Latest log ns :=
      funext fun f => propext (latest_append_other others)
    rw [same] at latest ⊢
    exact (tracks.offers ns f latest settled).imp_left (wider ns others)

/-- After a pass the namespaces that it went over are offered. -/
theorem pass (tracks : e.Tracks log Exempt) (pass : Pass names e e') : e'.Tracks log Exempt where
  keeps :=
    { functions := fun ns f => pass.functions ▸ tracks.keeps.functions ns f
      pending := pass.distinct tracks.keeps.pending }
  offers ns f latest settled := by
    have given : (· ∈ e.hosts.functionsOf ns) = Latest log ns :=
      funext fun f => propext tracks.keeps.mem_functionsOf
    by_cases bound : ns ∈ names
    · exact .inr (given ▸ pass.offers ns bound)
    · have before : ns ∉ e.hosts.pending := fun mem => settled ((pass.pending ns).mpr ⟨mem, bound⟩)
      exact (tracks.offers ns f latest before).imp_right fun offers =>
        offers.keep pass.store_extends (pass.others ns bound)

/-- The store extends and names stay, but for one that may be given to an instance. -/
theorem link (tracks : e.Tracks log Exempt) {l : Linker}
    (ext : e.store.Extends l.machine.store)
    (named : ∀ ns, ¬ Exempt ns → l.lookup? ns = e.linker.lookup? ns) :
    Tracks log Exempt { e with linker := l } where
  keeps := tracks.keeps
  offers ns f latest settled := by
    by_cases exempt : Exempt ns
    · exact .inl exempt
    · have offers := (tracks.offers ns f latest settled).resolve_left exempt
      exact .inr (offers.keep ext (named ns exempt))

end Tracks

theorem tracks_new (options : Options) (Exempt : String → Prop) :
    (Embedding.new options).Tracks [] Exempt where
  keeps := HostRegistry.keeps_empty
  offers _ _ latest := absurd latest not_latest_nil

/-! ## Binding -/

variable {log : List Registration} {Exempt : String → Prop} {e : Embedding}

/-- Binding goes over all that is pending, or stops at a namespace with a function that has no
implementation. -/
theorem Tracks.bindHosts_ends (tracks : e.Tracks log Exempt) :
    Ends Embed.bindHosts e
      (fun _ e' => e'.hosts.pending = [] ∧ e'.Tracks log Exempt ∧
        Pass e.hosts.pendingNamespaces e e')
      fun failure e' => e'.Tracks log Exempt ∧ ∃ ns f done later, Latest log ns f ∧
        f.behaviour = none ∧ failure = .fault (LinkError.hostFunction ns f.name).toFault ∧
        Halted log done ns later e e' := by
  unfold Embed.bindHosts
  apply Ends.step (get_eq e)
  refine Ends.mono (Embed.bindNamespaces_ends _ tracks.named) ?_ ?_
  · intro _ e' pass
    refine ⟨List.eq_nil_iff_forall_not_mem.mpr fun ns mem => ?_, tracks.pass pass, pass⟩
    obtain ⟨pending, absent⟩ := (pass.pending ns).mp mem
    exact absent (HostRegistry.mem_pendingNamespaces.mpr pending)
  · rintro failure e' ⟨done, ns, later, f, split, pass, mem, lacking, rfl⟩
    have ascending := split ▸ tracks.keeps.pairwise_pendingNamespaces
    rw [List.pairwise_append, List.pairwise_cons] at ascending
    obtain ⟨-, ⟨behind, -⟩, before⟩ := ascending
    have given : ∀ ns', (· ∈ e.hosts.functionsOf ns') = Latest log ns' := fun ns' =>
      funext fun f => propext tracks.keeps.mem_functionsOf
    refine ⟨tracks.pass pass, ns, f, done, later, tracks.keeps.mem_functionsOf.mp mem, lacking,
      rfl, ?_⟩
    exact {
      split := split
      before := fun ns' mem => before ns' mem ns List.mem_cons_self
      behind := behind
      bound := fun ns' mem =>
        ⟨fun pending => ((pass.pending ns').mp pending).2 mem, given ns' ▸ pass.offers ns' mem⟩
      pending := fun ns' => by
        rw [pass.pending, ← HostRegistry.mem_pendingNamespaces, split, List.mem_append,
          List.mem_cons]
        constructor
        · exact fun both => both.1.resolve_left both.2
        · refine fun is => ⟨.inr is, fun mem => ?_⟩
          have unlike := before ns' mem ns' (List.mem_cons.mpr is)
          exact String.lt_irrefl ns' unlike
      store := pass.store }

/-- Linking a module leaves the names alone but for the one that is given. -/
theorem link_ends (fuel : Nat) (m : Module) (name : String) (l : Linker) :
    Ends (Link.instantiate fuel m name) l
      (fun _ l' => l.machine.store.Extends l'.machine.store ∧
        ∀ ns, ns ≠ name → l'.lookup? ns = l.lookup? ns)
      fun _ l' => l.machine.store.Extends l'.machine.store ∧
        ∀ ns, l'.lookup? ns = l.lookup? ns := by
  have kept := Link.instantiate_keeps fuel name (P := l.machine.store.Extends) (m := m) (.refl _)
    (fun externs _ => l.machine.store.extends_addInstance _)
    (fun _ _ before addition => before.add addition) fun _ _ before evolves => before.evolve evolves
  refine Ends.mono (kept.both (Link.instantiate_names fuel m name l)) ?_ ?_
  · rintro id l' ⟨ext, -, registry⟩
    refine ⟨ext, fun ns other => ?_⟩
    unfold Linker.lookup?
    rw [registry]
    split
    · exact (l.lookup?_register name ns id).trans (if_neg other)
    · rfl
  · rintro stop l' ⟨ext, registry⟩
    refine ⟨ext, fun ns => ?_⟩
    unfold Linker.lookup?
    rw [registry]

/-- Instantiating a module binds all that is pending, or there is a function without an
implementation; and what is offered stays, but for the name that the module is given. -/
theorem Tracks.instantiate_ends (tracks : e.Tracks log Exempt) (fuel : Nat) (m : Module)
    (name : String) :
    Ends (Embed.instantiate fuel m name) e
      (fun _ e' => e'.Tracks log (fun ns => ns = name ∨ Exempt ns) ∧ e'.hosts.pending = [])
      fun _ e' => e'.Tracks log Exempt ∧
        (e'.hosts.pending = [] ∨ ∃ ns f, Latest log ns f ∧ f.behaviour = none) := by
  unfold Embed.instantiate
  refine Ends.bind (Ends.mono tracks.bindHosts_ends (fun _ _ bound => bound) ?_) ?_
  · rintro failure e' ⟨tracks, ns, f, -, -, latest, lacking, -⟩
    exact ⟨tracks, .inr ⟨ns, f, latest, lacking⟩⟩
  · rintro _ e₁ ⟨bound, tracks, -⟩
    refine Ends.mono (Embed.onLinker_ends (link_ends fuel m name e₁.linker)) ?_ ?_
    · rintro id e' ⟨⟨ext, named⟩, same⟩
      rw [same]
      have wider : e₁.Tracks log fun ns => ns = name ∨ Exempt ns := tracks.mono fun _ => .inr
      exact ⟨wider.link ext fun ns other => named ns fun is => other (.inl is), bound⟩
    · rintro failure e' ⟨stop, rfl, ⟨ext, named⟩, same⟩
      rw [same]
      exact ⟨tracks.link ext fun ns _ => named ns, .inl bound⟩

/-- If every function has an implementation an instantiation binds all that is pending. -/
theorem Tracks.instantiate_binds (tracks : e.Tracks log Exempt)
    (implemented : ∀ ns f, Latest log ns f → f.behaviour ≠ none) (fuel : Nat) (m : Module)
    (name : String) : Ends (Embed.instantiate fuel m name) e (fun _ e' => e'.hosts.pending = [])
      fun _ e' => e'.hosts.pending = [] := by
  refine Ends.mono (tracks.instantiate_ends fuel m name) (fun _ _ bound => bound.2) ?_
  rintro failure e' ⟨-, bound | ⟨ns, f, latest, lacking⟩⟩
  · exact bound
  · exact absurd lacking (implemented ns f latest)

/-! ## Histories -/

variable {options : Options} {requests : List Request}

theorem reached_concat (options : Options) (requests : List Request) (r : Request) :
    reached options (requests ++ [r]) = r.run (reached options requests) := by
  unfold reached
  rw [List.foldl_append]
  rfl

theorem registrations_concat (requests : List Request) (r : Request) :
    registrations (requests ++ [r]) = registrations requests ++ r.accepted := by
  unfold registrations
  rw [List.flatMap_append, List.flatMap_singleton]

/-- A namespace stays taken until something is registered in it. -/
theorem Taken.concat {ns : String} (taken : Taken options requests ns) {r : Request}
    (others : ∀ entry ∈ r.accepted, entry.1 ≠ ns) : Taken options (requests ++ [r]) ns := by
  obtain ⟨before, fuel, m, later, rfl, made, untouched⟩ := taken
  refine ⟨before, fuel, m, later ++ [r], by simp, made, fun r' mem => ?_⟩
  rcases List.mem_append.mp mem with old | new
  · exact untouched r' old
  · cases List.mem_singleton.mp new
    exact others

/-- Whatever is asked for, the registry and the names keep track of all registrations. -/
theorem tracks_reached (options : Options) (requests : List Request) :
    (reached options requests).Tracks (registrations requests) (Taken options requests) := by
  induction requests using List.reverseRecOn with
  | nil => exact tracks_new options _
  | append_singleton requests r ih =>
      rw [reached_concat, registrations_concat]
      cases r with
      | register what =>
          show Tracks _ _ { reached options requests with hosts := what.run _ }
          rw [what.run_eq]
          exact ih.putAll fun ns others taken => taken.concat others
      | instantiate fuel m name =>
          have ends := ih.instantiate_ends fuel m name
          show Tracks (registrations requests ++ []) _ (after (Embed.instantiate fuel m name) _)
          have kept : ∀ ns, Taken options requests ns →
              Taken options (requests ++ [Request.instantiate fuel m name]) ns := fun ns taken =>
            taken.concat fun entry mem => absurd mem List.not_mem_nil
          rw [List.append_nil]
          unfold after
          split
          · next id e' ran =>
              refine (ends.good ran).1.mono fun ns exempt => ?_
              rcases exempt with rfl | taken
              · have none : ∀ r ∈ ([] : List Request), ∀ entry ∈ r.accepted, entry.1 ≠ ns :=
                  fun r mem => absurd mem List.not_mem_nil
                refine ⟨requests, fuel, m, [], rfl, ⟨id, ?_⟩, none⟩
                unfold outcome
                rw [ran]
              · exact kept ns taken
          · next stop e' ran => exact (ends.bad ran).1.mono kept

theorem Tracks.settled {e : Embedding}
    (tracks : e.Tracks (registrations requests) (Taken options requests))
    (pending : e.hosts.pending = []) : Settled options requests e where
  pending := pending
  offers ns f latest untaken := by
    have settled : ns ∉ e.hosts.pending := by
      rw [pending]
      exact List.not_mem_nil
    exact (tracks.offers ns f latest settled).resolve_left untaken

/-- Binding loses no registration. After any requests, a binding that succeeds leaves nothing
pending, and every namespace that no module has taken since offers exactly the last
registration of each of its names. A binding that stops has come to a namespace with a function
without an implementation: the pending namespaces before it are bound, it and those behind it
are pending, and nothing was added for it. And when a function is the only one without an
implementation, then once it has been replaced by one that has one, the next instantiation
binds everything, whether the module can be linked or not. -/
theorem bindHosts_settles_or_halts (options : Options) (requests : List Request) :
    Ends Embed.bindHosts (reached options requests)
        (fun _ e' => Settled options requests e')
        (fun failure e' => ∃ ns f done later, Latest (registrations requests) ns f ∧
          f.behaviour = none ∧ failure = .fault (LinkError.hostFunction ns f.name).toFault ∧
          Halted (registrations requests) done ns later (reached options requests) e') ∧
      ∀ ns f, Latest (registrations requests) ns f →
        (∀ ns' f', Latest (registrations requests) ns' f' → f'.behaviour = none →
          ns' = ns ∧ f'.name = f.name) →
        ∀ (what : Registering) (g : HostFunction), what.accepted = [(ns, g)] → g.name = f.name →
          g.behaviour ≠ none → ∀ fuel m name,
            Settled options (requests ++ [Request.register what, .instantiate fuel m name])
              (reached options
                (requests ++ [Request.register what, .instantiate fuel m name])) := by
  have tracks := tracks_reached options requests
  constructor
  · exact Ends.mono tracks.bindHosts_ends (fun _ e' bound => bound.2.1.settled bound.1)
      fun failure e' stopped => stopped.2
  · intro ns f _ only what g accepted same implemented fuel m name
    have log : registrations (requests ++ [Request.register what]) =
        registrations requests ++ [(ns, g)] :=
      accepted ▸ registrations_concat requests (.register what)
    have all : ∀ ns' f', Latest (registrations (requests ++ [Request.register what])) ns' f' →
        f'.behaviour ≠ none := by
      intro ns' f' latest lacking
      rw [log, latest_concat] at latest
      rcases latest with is | ⟨latest, other⟩
      · cases is
        exact implemented lacking
      · obtain ⟨rfl, named⟩ := only ns' f' latest lacking
        exact other ⟨rfl, same.trans named.symm⟩
    have split : requests ++ [Request.register what, .instantiate fuel m name] =
        (requests ++ [Request.register what]) ++ [Request.instantiate fuel m name] := by simp
    rw [split]
    refine (tracks_reached options _).settled ?_
    rw [reached_concat]
    exact ((tracks_reached options _).instantiate_binds all fuel m name).after

/-- Of two namespaces the first has a function without an implementation, so that a module
cannot be instantiated. -/
def stuckRequests : List Request := [
  .register (.function "a" "broken" ⟨[], []⟩ none),
  .register (.function "b" "one" ⟨[], [.i32]⟩ (some (.const [some (.i32 1)]))),
  .instantiate 10 {} "first"]

/-- The function is replaced, and a module is instantiated again. -/
def repairRequests : List Request := [
  .register (.function "a" "broken" ⟨[], []⟩ (some (.const []))),
  .instantiate 10 {} "second"]

/-- It is enough to replace that function. -/
theorem settled_once_replaced :
    Settled {} (stuckRequests ++ repairRequests)
      (reached {} (stuckRequests ++ repairRequests)) := by
  have log : registrations stuckRequests = [("a", ⟨"broken", ⟨[], []⟩, none⟩),
      ("b", ⟨"one", ⟨[], [.i32]⟩, some (.const [some (.i32 1)])⟩)] := rfl
  refine (bindHosts_settles_or_halts {} stuckRequests).2 "a" ⟨"broken", ⟨[], []⟩, none⟩ ?_ ?_
    (.function "a" "broken" ⟨[], []⟩ (some (.const []))) _ rfl rfl (by simp) 10 {} "second"
  · exact log ▸ ⟨[], _, rfl, by simp⟩
  · intro ns f latest lacking
    have mem := latest.mem
    rw [log] at mem
    rcases List.mem_cons.mp mem with is | mem
    · cases is
      exact ⟨rfl, rfl⟩
    · cases List.mem_singleton.mp mem
      cases lacking

end Embedding

end WasmMachine
