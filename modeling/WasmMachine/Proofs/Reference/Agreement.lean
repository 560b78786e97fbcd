/-
# Agreement with the machine

An action of the reference interpreter agrees with one of the machine when both go on,
to outcomes that stand in a given relation, or both stop for the same reason.  The
machine has the same store, and its operands at hand are the values of the running
body; what lies under them is given by levels that the interpreter does not have.

When both stop, the machine may be anywhere, since only a call cleans up.  What is left
of it then is known up to what lies on top: nothing at or under the levels was touched.
-/

import WasmMachine.Proofs.Reference.Levels

namespace WasmMachine.Reference

/-- Both outcomes are results in the relation `Good`, or both are stops for the same
reason, in the relation `Bad` unless only the fuel was used up. -/
inductive Agree {α β : Type} (Good : α → State → β → Machine → Prop)
    (Bad : Stop → State → Machine → Prop) :
    EStateM.Result Stop State α → EStateM.Result Stop Machine β → Prop
  | ok {a : α} {s : State} {b : β} {m : Machine} : Good a s b m → Agree Good Bad (.ok a s) (.ok b m)
  | stop {stop : Stop} {s : State} {m : Machine} :
      (stop ≠ .outOfFuel → Bad stop s m) → Agree Good Bad (.error stop s) (.error stop m)

namespace Agree

variable {α β γ δ : Type} {Good : α → State → β → Machine → Prop}
  {After : γ → State → δ → Machine → Prop} {Bad Bad' : Stop → State → Machine → Prop}
  {s : State} {m m' : Machine}

theorem outOfFuel : Agree Good Bad (.error .outOfFuel s) (.error .outOfFuel m) :=
  stop fun fueled => absurd rfl fueled

theorem mono {Good' : α → State → β → Machine → Prop} {first : EStateM.Result Stop State α}
    {second : EStateM.Result Stop Machine β} (agree : Agree Good Bad first second)
    (good : ∀ a s b m, Good a s b m → Good' a s b m)
    (bad : ∀ stop s m, Bad stop s m → Bad' stop s m) : Agree Good' Bad' first second := by
  cases agree with
  | ok fine => exact ok (good _ _ _ _ fine)
  | stop known => exact stop fun fueled => bad _ _ _ (known fueled)

/-- When the machine goes on, so does the interpreter. -/
theorem exists_of_ok {outcome : EStateM.Result Stop State α} {b : β}
    (agree : Agree Good Bad outcome (.ok b m)) : ∃ a s, outcome = .ok a s ∧ Good a s b m := by
  cases agree with
  | ok good => exact ⟨_, _, rfl, good⟩

/-- What comes next agrees wherever the first actions end. -/
theorem bind {ref : Eval α} {run : Run β} {next : α → Eval γ} {next' : β → Run δ}
    (first : Agree Good Bad (ref s) (run m))
    (rest : ∀ a s b m, Good a s b m → Agree After Bad (next a s) (next' b m)) :
    Agree After Bad ((ref >>= next) s) ((run >>= next') m) := by
  show Agree After Bad (EStateM.bind ref next s) (EStateM.bind run next' m)
  unfold EStateM.bind
  generalize ref s = outcome, run m = outcome' at first ⊢
  cases first with
  | ok fine => exact rest _ _ _ _ fine
  | stop known => exact stop known

/-- A step that the machine takes alone. -/
theorem right {outcome : EStateM.Result Stop State γ} {run : Run β} {next' : β → Run δ} {b : β}
    (taken : run m = .ok b m') (rest : Agree After Bad outcome (next' b m')) :
    Agree After Bad outcome ((run >>= next') m) := by
  show Agree After Bad outcome (EStateM.bind run next' m)
  unfold EStateM.bind
  rwa [taken]

/-- Choices that are made alike. -/
theorem ite {c : Prop} [Decidable c] {first first' : EStateM.Result Stop State α}
    {second second' : EStateM.Result Stop Machine β} (holds : c → Agree Good Bad first second)
    (fails : ¬ c → Agree Good Bad first' second') :
    Agree Good Bad (if c then first else first') (if c then second else second') := by
  by_cases known : c
  · rw [if_pos known, if_pos known]
    exact holds known
  · rw [if_neg known, if_neg known]
    exact fails known

end Agree

/-! ## The machine of a state -/

/-- The machine that is to do what is done to a state: its store is that of the state,
and its stack and its frame are given. -/
def State.machine (s : State) (setting : Setting) (frame : Option Frame)
    (operands : List Value) (levels : List Level) : Machine where
  store := s.store
  stack := .of operands levels
  frame := frame
  depth := setting.depth
  options := setting.options
  names := setting.names
  records := s.records

/-- What is left of a machine that stopped with a trap: the store of the state, and a
stack on top of the given operands and levels. -/
def Stranded (setting : Setting) (bottom : List Value) (levels : List Level) (stop : Stop)
    (s : State) (m : Machine) : Prop :=
  (∃ t, stop = .trap t) ∧
    ∃ frame operands upper, m = s.machine setting frame operands upper ∧
      Level.Rests bottom levels operands upper

/-- Where a signal leaves the machine of a body above given levels. A transfer of
control has removed everything down to and including the marker that it goes to, and
put its values in its place. -/
inductive Meets (setting : Setting) (levels : List Level) : Signal → State → Exit → Machine → Prop
  | normal {s : State} :
      Meets setting levels .normal s .normal (s.machine setting s.frame s.values levels)
  | returned {s : State} {place : Landing} {values : List Value} :
      Level.frame? levels = some place → values.length = place.arity →
      Meets setting levels (.returned values) s .returned
        (s.machine setting s.frame (values.reverse ++ place.level.below) place.outer)
  | branch {s : State} {place : Landing} {depth : Nat} {values : List Value} :
      (Level.labels levels)[depth]? = some place → values.length = place.arity →
      Meets setting levels (.branch depth values) s (.branch depth)
        (s.machine setting s.frame (values.reverse ++ place.level.below) place.outer)

section

variable {setting : Setting} {levels inner outer : List Level} {l : Level} {s : State}
  {frame : Option Frame} {operands rest bottom : List Value} {n : Nat}

theorem Stranded.here {t : Trap} :
    Stranded setting [] levels (.trap t) s (s.machine setting frame operands levels) :=
  ⟨⟨t, rfl⟩, frame, operands, levels, rfl, .bare operands levels⟩

/-- What is stranded on operands is stranded on the lower ones among them. -/
theorem Stranded.drop {stop : Stop} {m : Machine} (upper : List Value)
    (stranded : Stranded setting (upper ++ bottom) levels stop s m) :
    Stranded setting bottom levels stop s m := by
  obtain ⟨trap, frame, operands, levels', rfl, rests⟩ := stranded
  exact ⟨trap, frame, operands, levels', rfl, rests.drop⟩

theorem Stranded.bare {stop : Stop} {m : Machine}
    (stranded : Stranded setting bottom levels stop s m) :
    Stranded setting [] levels stop s m := by
  rw [← List.append_nil bottom] at stranded
  exact stranded.drop bottom

/-- What is stranded above a marker is stranded on what lies under it. -/
theorem Stranded.pop {stop : Stop} {m : Machine} {marker : Marker} {below : List Value}
    (stranded : Stranded setting [] (⟨marker, below⟩ :: levels) stop s m) :
    Stranded setting below levels stop s m := by
  obtain ⟨trap, frame, operands, levels', rfl, rests⟩ := stranded
  exact ⟨trap, frame, operands, levels', rfl, rests.pop⟩

/-! ## Taking values off the stack -/

theorem popValues_machine (n : Nat) :
    Run.popValues n (s.machine setting frame operands levels) =
      if n ≤ operands.length then
        .ok (operands.take n).reverse (s.machine setting frame (operands.drop n) levels)
      else .error (.trap .operands) (s.machine setting frame operands levels) := by
  by_cases enough : n ≤ operands.length
  · have popped : (Stack.of operands levels).popValues? n =
        some ((operands.take n).reverse, .of (operands.drop n) levels) := if_pos enough
    rw [if_pos enough]
    simp only [Run.popValues, State.machine, bind, EStateM.bind, get_eq, popped, Run.modifyStack]
    rfl
  · have popped : (Stack.of operands levels).popValues? n = none := if_neg enough
    rw [if_neg enough]
    simp only [Run.popValues, State.machine, bind, EStateM.bind, get_eq, popped]
    rfl

/-- Unwinding to a level fails only for want of values. -/
theorem unwind_machine (inner : List Level) (n : Nat) (split : levels = inner ++ l :: outer) :
    Run.unwind (l.position outer) n (s.machine setting frame operands levels) =
      if n ≤ operands.length then
        .ok () (s.machine setting frame (operands.take n ++ l.below) outer)
      else .error (.trap .operands) (s.machine setting frame operands levels) := by
  by_cases enough : n ≤ operands.length
  · have cut : (s.machine setting frame operands levels).stack.operands =
        operands.take n ++ operands.drop n := (List.take_append_drop n operands).symm
    obtain ⟨stack, unwound, top, under⟩ := Run.unwind_eq cut split
    rw [List.length_take, Nat.min_eq_left enough] at unwound
    rw [if_pos enough, unwound, Stack.eq_of top under]
    rfl
  · have popped : Run.popValues n (s.machine setting frame operands levels) = _ :=
      popValues_machine n
    rw [if_neg enough] at popped ⊢
    simp only [Run.unwind, bind, EStateM.bind, popped]

/-- The end of a construct fails only for want of results: the label at the height
under them is always there. -/
theorem endLabel_machine (n : Nat) (label : Label) (under : List Value) :
    Run.endLabel (under.length + Level.count levels) n
        (s.machine setting frame operands (⟨.label label, under⟩ :: levels)) =
      if n ≤ operands.length then
        .ok () (s.machine setting frame (operands.take n ++ under) levels)
      else .error (.trap .operands)
        (s.machine setting frame operands (⟨.label label, under⟩ :: levels)) := by
  by_cases enough : n ≤ operands.length
  · have cut : (s.machine setting frame operands
        (⟨.label label, under⟩ :: levels)).stack.operands =
        operands.take n ++ operands.drop n := (List.take_append_drop n operands).symm
    obtain ⟨stack, ended, top, below⟩ := Run.endLabel_eq cut rfl
    rw [List.length_take, Nat.min_eq_left enough] at ended
    rw [if_pos enough, ended, Stack.eq_of top below]
    rfl
  · have popped : Run.popValues n
        (s.machine setting frame operands (⟨.label label, under⟩ :: levels)) = _ :=
      popValues_machine n
    rw [if_neg enough] at popped ⊢
    simp only [Run.endLabel, bind, EStateM.bind, popped]

/-! ## Single actions -/

/-- A step on the values of a body is a step on the operands at hand. -/
theorem step_agree {α : Type} (action : Step α) :
    Agree (fun a s' b m' => a = b ∧ m' = s'.machine setting s'.frame s'.values levels)
      (Stranded setting [] levels) (step action s)
      (Run.step action (s.machine setting s.frame s.values levels)) := by
  unfold step Run.step
  simp only [State.machine, Stack.of]
  cases action ⟨s.values, s.frame, s.store⟩ with
  | ok a scope => exact .ok ⟨rfl, rfl⟩
  | error t scope => exact .stop fun _ => .here

/-- Taking arguments reaches no further than the values of the body, as long as there
are enough of them or nothing else is at hand. -/
theorem take_agree (enough : rest = [] ∨ n ≤ s.values.length) :
    Agree (fun a s' b m' => a = b ∧ a = (s.values.take n).reverse ∧ n ≤ s.values.length ∧
        s' = { s with values := s.values.drop n } ∧
        m' = s'.machine setting frame (s'.values ++ rest) levels)
      (Stranded setting rest levels) (take n s)
      (Run.popValues n (s.machine setting frame (s.values ++ rest) levels)) := by
  have same : n ≤ (s.values ++ rest).length ↔ n ≤ s.values.length := by
    rw [List.length_append]
    rcases enough with rfl | enough
    · simp
    · omega
  rw [popValues_machine]
  simp only [take, same]
  refine .ite (fun enough => .ok ⟨?_, rfl, enough, rfl, ?_⟩) fun _ => .stop fun _ => ?_
  · rw [List.take_append_of_le_length enough]
  · rw [List.drop_append_of_le_length enough]
    rfl
  · exact ⟨⟨_, rfl⟩, frame, _, levels, rfl, .here s.values⟩

/-- A body takes its arguments from its own values only. -/
theorem take_bare_agree :
    Agree (fun a s' b m' => a = b ∧ m' = s'.machine setting s'.frame s'.values levels)
      (Stranded setting [] levels) (take n s)
      (Run.popValues n (s.machine setting s.frame s.values levels)) := by
  have taken : Agree _ (Stranded setting [] levels) (take n s)
      (Run.popValues n (s.machine setting s.frame (s.values ++ []) levels)) :=
    take_agree (.inl rfl)
  rw [List.append_nil] at taken
  refine taken.mono ?_ fun _ _ _ stranded => stranded
  rintro _ _ _ _ ⟨same, -, -, rfl, rfl⟩
  exact ⟨same, by rw [List.append_nil]⟩

/-- Taking values along to a level is taking them and forgetting the list. -/
theorem unwind_agree (split : levels = inner ++ l :: outer) :
    Agree (fun values s' _ m' => values.length = n ∧
        m' = s'.machine setting s'.frame (values.reverse ++ l.below) outer)
      (Stranded setting [] levels) (take n s)
      (Run.unwind (l.position outer) n (s.machine setting s.frame s.values levels)) := by
  rw [unwind_machine inner n split]
  unfold take
  refine .ite (fun enough => .ok ⟨?_, ?_⟩) fun _ => .stop fun _ => .here
  · simp [enough]
  · rw [List.reverse_reverse]
    rfl

/-- A branch goes where the signal says. -/
theorem branch_agree (depth : Nat) :
    Agree (Meets setting levels) (Stranded setting [] levels)
      (branch (Level.targets levels) depth s)
      (Run.branch depth (s.machine setting s.frame s.values levels)) := by
  have searched := Level.labelAmong_count levels depth
  have known : (Level.targets levels).labels[depth]? =
      (Level.labels levels)[depth]?.map (·.arity) := List.getElem?_map
  unfold branch Run.branch
  refine .right rfl ?_
  rw [known]
  cases there : (Level.labels levels)[depth]? with
  | none =>
      rw [there] at searched
      have found : (s.machine setting s.frame s.values levels).stack.label? depth = none :=
        Option.map_eq_none_iff.mp searched
      rw [found]
      exact .stop fun _ => .here
  | some place =>
      rw [there] at searched
      obtain ⟨⟨target, position⟩, searched, same⟩ := Option.map_eq_some_iff.mp searched
      obtain rfl : position = place.level.position place.outer := (Prod.mk.inj same).2
      have arity : target.arity = place.arity := (Prod.mk.inj same).1
      obtain ⟨inner, split⟩ := Level.exists_of_mem_labels (List.mem_of_getElem? there)
      have found : (s.machine setting s.frame s.values levels).stack.label? depth =
          some (target, place.level.position place.outer) := searched
      rw [found]
      simp only [Option.map_some, arity]
      refine .bind (unwind_agree split) ?_
      rintro values s' _ _ ⟨count, rfl⟩
      exact .ok (.branch there count)

/-- A return goes to the nearest frame. -/
theorem leave_agree :
    Agree (Meets setting levels) (Stranded setting [] levels) (leave (Level.targets levels) s)
      (Run.leave (s.machine setting s.frame s.values levels)) := by
  have searched := Level.frameAmong_count levels
  have known : (Level.targets levels).results = (Level.frame? levels).map (·.arity) := rfl
  unfold leave Run.leave
  refine .right rfl ?_
  rw [known]
  cases there : Level.frame? levels with
  | none =>
      rw [there] at searched
      have found : (s.machine setting s.frame s.values levels).stack.frame? = none :=
        Option.map_eq_none_iff.mp searched
      rw [found]
      exact .stop fun _ => .here
  | some place =>
      rw [there] at searched
      obtain ⟨⟨⟨arity, locals⟩, position⟩, searched, same⟩ := Option.map_eq_some_iff.mp searched
      obtain ⟨rfl, rfl⟩ := Prod.mk.inj same
      obtain ⟨inner, split⟩ := Level.exists_of_frame there
      have found : (s.machine setting s.frame s.values levels).stack.frame? =
          some ((place.arity, locals), place.level.position place.outer) := searched
      rw [found]
      refine .bind (unwind_agree split) ?_
      rintro values s' _ _ ⟨count, rfl⟩
      exact .ok (.returned there count)

/-- The end of a construct hands back what the interpreter hands back. -/
theorem handBack_agree (label : Label) (left : List Value) :
    Agree (fun _ s' _ m' => m' = s'.machine setting s'.frame s'.values levels)
      (Stranded setting [] levels) (handBack n left s)
      (Run.endLabel (s.values.length + Level.count levels) n
        (s.machine setting s.frame left (⟨.label label, s.values⟩ :: levels))) := by
  rw [endLabel_machine]
  simp only [handBack, topmost]
  by_cases enough : n ≤ left.length
  · simp only [if_pos enough]
    refine .ok ?_
    rw [List.reverse_reverse]
    rfl
  · simp only [if_neg enough]
    exact .stop fun _ => Stranded.here.pop.bare

/-- A body that runs apart leaves the list outside alone. -/
theorem apart_agree {α β : Type} {Good : α → State → β → Machine → Prop} {action : Eval α}
    {values : List Value} {second : EStateM.Result Stop Machine β}
    (agree : Agree Good (Stranded setting bottom levels)
      (action { s with values := values.reverse }) second) :
    Agree (fun out s' b m' => ∃ inner, Good out.1 inner b m' ∧ out.2 = inner.values ∧
        s' = { inner with values := s.values })
      (Stranded setting bottom levels) (apart values action s) second := by
  unfold apart
  generalize action { s with values := values.reverse } = outcome at agree ⊢
  cases agree with
  | ok good => exact .ok ⟨_, good, rfl, rfl⟩
  | stop known => exact .stop known

/-- So does one that runs in another frame, which is left with it. -/
theorem within_agree {α β : Type} {Good : α → State → β → Machine → Prop} {action : Eval α}
    {values : List Value} {second : EStateM.Result Stop Machine β}
    (agree : Agree Good (Stranded setting bottom levels)
      (action { s with values := values.reverse, frame := frame }) second) :
    Agree (fun out s' b m' => ∃ inner, Good out.1 inner b m' ∧ out.2 = inner.values ∧
        s' = { inner with values := s.values, frame := s.frame })
      (fun stop s' m' => Stranded setting bottom levels stop s' m' ∧
        s'.values = s.values ∧ s'.frame = s.frame)
      (within frame values action s) second := by
  unfold within
  generalize action { s with values := values.reverse, frame := frame } = outcome at agree ⊢
  cases agree with
  | ok good => exact .ok ⟨_, good, rfl, rfl⟩
  | stop known => exact .stop fun fueled => ⟨known fueled, rfl, rfl⟩

/-- The signature of a block does not depend on the stack. -/
theorem blockSignature_agree (i : Instruction) :
    Agree (fun a s' b m' => a = b ∧ s' = s ∧ m' = s.machine setting s.frame operands levels)
      (Stranded setting [] levels) (blockSignature i s)
      (Run.blockSignature i (s.machine setting s.frame operands levels)) := by
  unfold blockSignature Run.blockSignature
  cases i.blockType? with
  | none => exact .stop fun _ => .here
  | some type =>
      have seen : Agree (fun a s' b m' => a = s ∧ s' = s ∧
          b = s.machine setting s.frame operands levels ∧
          m' = s.machine setting s.frame operands levels) (Stranded setting [] levels)
          ((get : Eval State) s)
          ((get : Run Machine) (s.machine setting s.frame operands levels)) :=
        .ok ⟨rfl, rfl, rfl, rfl⟩
      refine .bind seen ?_
      rintro _ _ _ _ ⟨rfl, rfl, rfl, rfl⟩
      simp only [State.machine]
      cases BlockType.signature? _ type with
      | some signature => exact .ok ⟨rfl, rfl, rfl⟩
      | none => exact .stop fun _ => .here

/-- Neither does the function that a host function finds under a name. -/
theorem namedExport_agree {Bad : Stop → State → Machine → Prop} (inst func : String) :
    Agree (fun a s' b m' => a = b ∧ s' = s ∧ m' = s.machine setting frame operands levels) Bad
      (namedExport setting inst func s)
      (Run.namedExport inst func (s.machine setting frame operands levels)) := by
  unfold namedExport Run.namedExport
  refine .right rfl ?_
  simp only [State.machine]
  cases setting.names.lookup inst with
  | none => exact .ok ⟨rfl, rfl, rfl⟩
  | some id =>
      simp only [bind, EStateM.bind, get_eq]
      cases s.store.instances[id]?.bind (·.exportedFunc? func) with
      | none => exact .ok ⟨rfl, rfl, rfl⟩
      | some addr => exact .ok ⟨rfl, rfl, rfl⟩

end

end WasmMachine.Reference
