/-
# Where a name is broken into words

The conversion takes a name word by word: it looks ahead to the end of a run of capitals, and
gives the last one back when a lower-case letter follows.  What comes out can be told without
any run: each code point is kept or lower-cased, and whether an underscore goes in front of it
depends on it and its two neighbours.

For this no capital may be a lower-case letter as well, which is a fact about the two tables.
-/

import Mathlib.Data.List.Chain
import Mathlib.Data.List.TakeWhile
import WasmMachine.Text.SnakeCase

namespace WasmMachine.Text

/-! ## Capitals are no lower-case letters -/

/-- A run `(first, last, stride)` of code points. -/
abbrev LetterRun := Nat × Nat × Nat

/-- All members of a run are even, or all are odd. -/
def Alternates (run : LetterRun) : Prop := run.2.2 = 2 ∨ run.1 = run.2.1

/-- Two runs that have nothing in common, for a reason that can be seen: one ends before the
other begins, or they alternate and are out of step. -/
def Apart (run run' : LetterRun) : Prop :=
  run.2.1 < run'.1 ∨ run'.2.1 < run.1 ∨
    Alternates run ∧ Alternates run' ∧ run.1 % 2 ≠ run'.1 % 2

/-- A run begins behind the end of another one. -/
def Before (run run' : LetterRun) : Prop := run.2.1 < run'.1 ∧ run'.1 ≤ run'.2.1

instance (run : LetterRun) : Decidable (Alternates run) := inferInstanceAs (Decidable (_ ∨ _))

instance (run run' : LetterRun) : Decidable (Apart run run') :=
  inferInstanceAs (Decidable (_ ∨ _ ∨ _ ∧ _ ∧ _))

instance (run run' : LetterRun) : Decidable (Before run run') := inferInstanceAs (Decidable (_ ∧ _))

instance : Trans Before Before Before where
  trans := fun ⟨ends, ordered⟩ ⟨ends', ordered'⟩ =>
    ⟨Nat.lt_trans (Nat.lt_of_lt_of_le ends ordered) ends', ordered'⟩

theorem inRun_iff {n first last stride : Nat} :
    inRun n first last stride = true ↔ (first ≤ n ∧ n ≤ last) ∧ (n - first) % stride = 0 := by
  simp only [inRun, Bool.and_eq_true, decide_eq_true_eq, beq_iff_eq]

theorem Alternates.mod_eq {run : LetterRun} (alternates : Alternates run) {n : Nat}
    (within : inRun n run.1 run.2.1 run.2.2 = true) : n % 2 = run.1 % 2 := by
  obtain ⟨⟨behind, before⟩, step⟩ := inRun_iff.mp within
  rcases alternates with stride | single
  · rw [stride] at step
    omega
  · omega

theorem Apart.not_inRun {run run' : LetterRun} (apart : Apart run run') {n : Nat}
    (within : inRun n run.1 run.2.1 run.2.2 = true) :
    ¬ inRun n run'.1 run'.2.1 run'.2.2 = true := by
  intro within'
  obtain ⟨⟨behind, before⟩, -⟩ := inRun_iff.mp within
  obtain ⟨⟨behind', before'⟩, -⟩ := inRun_iff.mp within'
  rcases apart with ends | begins | ⟨alternates, alternates', step⟩
  · omega
  · omega
  · exact step ((alternates.mod_eq within).symm.trans (alternates'.mod_eq within'))

/-- Go through two lists of runs in increasing order side by side. Of the two runs in front,
which have to be apart, the one that ends first is done with. -/
def sweep : Nat → List LetterRun → List LetterRun → Bool
  | _, [], _ => true
  | _, _ :: _, [] => true
  | 0, _ :: _, _ :: _ => false
  | fuel + 1, run :: runs, run' :: runs' =>
      decide (Apart run run') &&
        if run.2.1 ≤ run'.2.1 then sweep fuel runs (run' :: runs')
        else sweep fuel (run :: runs) runs'

theorem apart_of_sweep {fuel : Nat} {runs runs' : List LetterRun} (ordered : runs.Pairwise Before)
    (ordered' : runs'.Pairwise Before) (swept : sweep fuel runs runs' = true) :
    ∀ run ∈ runs, ∀ run' ∈ runs', Apart run run' := by
  fun_induction sweep fuel runs runs' with
  | case1 => exact fun run mem => nomatch mem
  | case2 => exact fun run _ run' mem => nomatch mem
  | case3 => cases swept
  | case4 fuel first rest first' rest' ih ih' =>
      obtain ⟨apart, swept⟩ := (Bool.and_eq_true _ _).mp swept
      intro run mem run' mem'
      rcases List.mem_cons.mp mem with rfl | later
      · rcases List.mem_cons.mp mem' with rfl | later'
        · exact of_decide_eq_true apart
        · split at swept
          · next sooner =>
              exact .inl (Nat.lt_of_le_of_lt sooner (List.rel_of_pairwise_cons ordered' later').1)
          · exact ih' ordered ordered'.of_cons swept run mem run' later'
      · split at swept
        · exact ih ordered.of_cons ordered' swept run later run' mem'
        · next other =>
            rcases List.mem_cons.mp mem' with rfl | later'
            · have sooner := Nat.lt_of_not_le other
              exact .inr (.inl (Nat.lt_trans sooner (List.rel_of_pairwise_cons ordered later).1))
            · exact ih' ordered ordered'.of_cons swept run mem run' later'

theorem upperRuns_ordered : upperRuns.IsChain Before := by decide +kernel

theorem lowerRuns_ordered : lowerRuns.IsChain Before := by decide +kernel

theorem sweep_tables : sweep 400 upperRuns lowerRuns = true := by decide +kernel

theorem isLower_of_isUpper {c : Char} (capital : isUpper c = true) : isLower c = false := by
  obtain ⟨upper, listed, within⟩ := List.any_eq_true.mp capital
  have apart := apart_of_sweep upperRuns_ordered.pairwise lowerRuns_ordered.pairwise sweep_tables
  exact List.any_eq_false.mpr fun lower listed' => (apart upper listed lower listed').not_inRun within

/-! ## Words by position -/

/-- What becomes of a code point. -/
def lowered (c : Char) : Char := if isUpper c then toLower c else c

/-- A word starts at a position, but not at the first one: there is a capital, and no capital
in front of it or a lower-case letter behind it. -/
def StartsWord (letters : List Char) (p : Nat) : Prop :=
  0 < p ∧ letters[p]?.any isUpper = true ∧
    (letters[p - 1]?.any isUpper = false ∨ letters[p + 1]?.any isLower = true)

instance (letters : List Char) (p : Nat) : Decidable (StartsWord letters p) :=
  inferInstanceAs (Decidable (_ ∧ _ ∧ (_ ∨ _)))

/-- A code point of the converted name: an underscore that was put in, or what has become of a
code point of the name. -/
inductive Mark
  | underscore
  | letter (c : Char)

/-- The code point itself. -/
def Mark.char : Mark → Char
  | .underscore => '_'
  | .letter c => c

/-- What has become of a code point of the name. -/
def Mark.letter? : Mark → Option Char
  | .underscore => none
  | .letter c => some c

/-- A name position by position, with an underscore in front of each word but the first. -/
def marked (letters : List Char) : List Mark :=
  letters.zipIdx.flatMap fun (c, p) =>
    (if StartsWord letters p then [.underscore] else []) ++ [.letter (lowered c)]

/-! ## Words by neighbours -/

/-- A word starts at a code point between two others. -/
def startsBetween (before : Option Char) (c : Char) (next : Option Char) : Bool :=
  isUpper c && before.any fun b => !isUpper b || next.any isLower

/-- The same marks, told from the code point in front of the letters. -/
def marks : Option Char → List Char → List Mark
  | _, [] => []
  | before, c :: rest =>
      (if startsBetween before c rest.head? then [.underscore] else []) ++
        .letter (lowered c) :: marks (some c) rest

theorem startsWord_iff (done : List Char) (c : Char) (rest : List Char) :
    StartsWord (done ++ c :: rest) done.length ↔
      startsBetween done.getLast? c rest.head? = true := by
  have here : (done ++ c :: rest)[done.length]? = some c := by
    rw [List.getElem?_append_right (Nat.le_refl _), Nat.sub_self, List.getElem?_cons_zero]
  have behind : (done ++ c :: rest)[done.length + 1]? = rest.head? := by
    rw [List.getElem?_append_right (Nat.le_succ _), Nat.succ_sub (Nat.le_refl _), Nat.sub_self,
      List.getElem?_cons_succ, List.head?_eq_getElem?]
  unfold StartsWord startsBetween
  rw [here, behind]
  cases done using List.reverseRecOn with
  | nil => simp
  | append_singleton done b _ => simp

theorem marks_eq (done letters : List Char) :
    marks done.getLast? letters = (letters.zipIdx done.length).flatMap fun (c, p) =>
      (if StartsWord (done ++ letters) p then [.underscore] else []) ++ [.letter (lowered c)] := by
  induction letters generalizing done with
  | nil => rfl
  | cons c rest ih =>
      have ih := ih (done ++ [c])
      rw [List.getLast?_concat, List.length_append, List.append_assoc] at ih
      rw [marks, List.zipIdx_cons, List.flatMap_cons]
      simp only [startsWord_iff]
      rw [List.append_assoc]
      exact congrArg _ (congrArg _ ih)

theorem marked_eq_marks (letters : List Char) : marked letters = marks none letters :=
  (marks_eq [] letters).symm

theorem filterMap_marks (before : Option Char) (letters : List Char) :
    (marks before letters).filterMap Mark.letter? = letters.map lowered := by
  induction letters generalizing before with
  | nil => rfl
  | cons c rest ih =>
      rw [marks, List.filterMap_append, List.map_cons, ← ih (some c)]
      split <;> rfl

/-- Behind a capital no word starts within a run of capitals, unless a lower-case letter
follows at its end. -/
theorem marks_run {before : Char} (capital : isUpper before = true) {run rest : List Char}
    (capitals : ∀ a ∈ run, isUpper a = true) (plain : run = [] ∨ rest.head?.any isLower = false) :
    ∃ last, isUpper last = true ∧ marks (some before) (run ++ rest) =
      run.map (fun c => .letter (toLower c)) ++ marks (some last) rest := by
  induction run generalizing before with
  | nil => exact ⟨before, capital, rfl⟩
  | cons c run ih =>
      obtain ⟨capital', capitals⟩ := List.forall_mem_cons.mp capitals
      have stops := plain.resolve_left (List.cons_ne_nil c run)
      obtain ⟨last, capital'', same⟩ := ih capital' capitals (.inr stops)
      have next : (run ++ rest).head?.any isLower = false := by
        cases run with
        | nil => exact stops
        | cons next _ => exact isLower_of_isUpper (capitals next List.mem_cons_self)
      have inside : startsBetween (some before) c (run ++ rest).head? = false := by
        rw [startsBetween, Option.any_some, next, capital, Bool.not_true, Bool.or_false,
          Bool.and_false]
      refine ⟨last, capital'', ?_⟩
      rw [List.cons_append, marks, inside, same, lowered, if_pos capital']
      rfl

/-! ## Words by looking ahead -/

/-- The length of a word is that of its run of capitals, or one less. -/
theorem capitalWordLength_append {run tail : List Char} (capitals : ∀ a ∈ run, isUpper a = true)
    (ends : tail.head?.any isUpper = false) :
    capitalWordLength (run ++ tail) =
      if 1 < run.length && tail.head?.any isLower then run.length - 1 else run.length := by
  have none : tail.takeWhile isUpper = [] := by
    cases tail with
    | nil => rfl
    | cons next _ => exact List.takeWhile_cons_of_neg (Bool.eq_false_iff.mp ends)
  have length : ((run ++ tail).takeWhile isUpper).length = run.length := by
    rw [List.takeWhile_append_of_pos capitals, none, List.append_nil]
  unfold capitalWordLength
  simp only [length, List.drop_left]
  cases tail with
  | nil => simp
  | cons next rest => rfl

/-- A capital and the rest of its word. A word of more than one capital is not followed by a
lower-case letter, and a capital behind a word is. -/
theorem exists_word {c : Char} (capital : isUpper c = true) (rest : List Char) :
    ∃ word behind, rest = word ++ behind ∧ capitalWordLength (c :: rest) = word.length + 1 ∧
      (∀ a ∈ word, isUpper a = true) ∧ (word = [] ∨ behind.head?.any isLower = false) ∧
      (behind.head?.any isUpper = true → behind.tail.head?.any isLower = true) := by
  obtain ⟨run, tail, rfl, capitals, ends⟩ : ∃ run tail, rest = run ++ tail ∧
      (∀ a ∈ run, isUpper a = true) ∧ tail.head?.any isUpper = false := by
    refine ⟨rest.takeWhile isUpper, rest.dropWhile isUpper,
      List.takeWhile_append_dropWhile.symm, fun a => List.mem_takeWhile_imp, ?_⟩
    rw [← List.find?_not_eq_head?_dropWhile]
    cases found : rest.find? fun a => !isUpper a with
    | none => rfl
    | some next =>
        have other := List.find?_some found
        exact (Bool.not_eq_true' _).mp other
  have length := capitalWordLength_append (List.forall_mem_cons.mpr ⟨capital, capitals⟩) ends
  rw [List.cons_append] at length
  cases gives : decide (1 < (c :: run).length) && tail.head?.any isLower with
  | true =>
      -- The last capital of the run is given back.
      obtain ⟨long, follows⟩ := (Bool.and_eq_true _ _).mp gives
      rw [gives, if_pos rfl] at length
      cases run using List.reverseRecOn with
      | nil => exact absurd (of_decide_eq_true long) (Nat.lt_irrefl 1)
      | append_singleton word last _ =>
          obtain ⟨capitals, capital'⟩ := List.forall_mem_append.mp capitals
          have plain := isLower_of_isUpper (capital' last List.mem_cons_self)
          refine ⟨word, last :: tail, List.append_cons word last tail ▸ rfl, ?_, capitals, .inr plain,
            fun _ => follows⟩
          rw [length, List.length_cons, List.length_append]
          rfl
  | false =>
      rw [gives, if_neg Bool.false_ne_true] at length
      refine ⟨run, tail, rfl, length, capitals, ?_, fun more => ?_⟩
      · cases run with
        | nil => exact .inl rfl
        | cons next run =>
            have long : 1 < (c :: next :: run).length := Nat.succ_lt_succ (Nat.succ_pos _)
            rw [decide_eq_true long, Bool.true_and] at gives
            exact .inr gives
      · rw [ends] at more
        cases more

/-- Word by word comes out what the neighbours say, if a word starts here. -/
theorem snakeWords_eq_marks {fuel : Nat} (before : Option Char) (letters : List Char)
    (enough : letters.length < fuel)
    (starts : ∀ b ∈ before, isUpper b = true → letters.head?.any isUpper = true →
      letters.tail.head?.any isLower = true) :
    snakeWords fuel before.isNone letters = (marks before letters).map Mark.char := by
  induction fuel generalizing before letters with
  | zero => exact absurd enough (Nat.not_lt_zero _)
  | succ fuel ih =>
      cases letters with
      | nil => rfl
      | cons c rest =>
          have enough : rest.length < fuel := Nat.lt_of_succ_lt_succ enough
          rw [snakeWords]
          by_cases capital : isUpper c = true
          · obtain ⟨word, behind, rfl, length, capitals, plain, follows⟩ := exists_word capital rest
            obtain ⟨last, capital', same⟩ := marks_run capital capitals plain
            have fewer : behind.length < fuel := by
              rw [List.length_append] at enough
              omega
            have ih := ih (some last) behind fewer fun _ _ _ => follows
            have breaks : startsBetween before c (word ++ behind).head? = before.isSome := by
              cases before with
              | none => rw [startsBetween, Option.any_none, Bool.and_false, Option.isSome_none]
              | some b =>
                  have next := starts b rfl
                  rw [startsBetween, capital, Option.any_some, Bool.true_and, Option.isSome_some]
                  cases upper : isUpper b with
                  | true => exact next upper capital
                  | false => rfl
            rw [if_pos capital, length]
            simp only [List.take_succ_cons, List.take_left, List.drop_succ_cons, List.drop_left]
            rw [marks, breaks, same, lowered, if_pos capital]
            cases before with
            | none => simp [Mark.char, ← ih, Function.comp_def]
            | some b => simp [Mark.char, ← ih, Function.comp_def]
          · have ih := ih (some c) rest enough fun b mem capital' => by
              cases mem
              exact absurd capital' capital
            have plain : startsBetween before c rest.head? = false := by
              rw [startsBetween, Bool.eq_false_iff.mpr capital, Bool.false_and]
            rw [if_neg capital, marks, plain, lowered, if_neg capital]
            exact congrArg _ ih

/-- The converted name has every capital lower-cased and every other code point as it was, and
an underscore in front of a position just where a word starts behind the first position. Without
these underscores it is the name with its capitals lower-cased. -/
theorem snakeCase_pointwise (name : String) :
    (snakeCase name).toList = (marked name.toList).map Mark.char ∧
      (marked name.toList).filterMap Mark.letter? = name.toList.map lowered := by
  rw [marked_eq_marks, filterMap_marks, snakeCase, String.toList_ofList]
  exact ⟨snakeWords_eq_marks none name.toList (Nat.lt_succ_self _) (fun _ mem => nomatch mem), rfl⟩

/-- The last capital of a run belongs to the word behind it. -/
example : snakeCase "GetHTTPServer" = "get_http_server" := by decide +kernel

end WasmMachine.Text
