import ElementGrammar.Proofs.Rule.Quota

/-!
# What a run tries

A run that keeps its attempts lists them as they end.  What it tries can be said without such a
list, by what the rules say of elements and scopes: a rule is tried on the children before which
fewer than the quota match, and of alternatives those are tried before which none matches.

* `reached` are the members of a list before which fewer than a number are good.
* `Rule.trials` are the trials of a rule on a scope, each with the trials inside it, whether or
  not it succeeds.  They are defined from runs that keep nothing.
  `Rule.mem_trials_childrenAtMost` and `Rule.mem_trials_choice` say which children and which
  alternatives are tried.
* `Rule.eval_untraced` is that keeping attempts changes neither the value or error of a rule nor
  the scope that it leaves.
* `Scope.attempts_scan` and `Scope.attempts_tryVariants` are what the two ways of trying keep, and
  `Rule.attempts_eval` is the induction over rules.
* `Attempt.matched_mem_blockLines_iff` and `Attempt.infix_blockLines` are what the lines of a
  block say, and `Attempt.block_eq_matched_iff` and `Attempt.block_of_failed` how a block is
  printed.

`Rule.trace_run` puts these together.
-/

namespace ElementGrammar

variable {α β ι : Type}

/-! ## Members that are reached -/

/-- The members of a list before which fewer than a number are good, with their places. -/
def reached (good : ι → Bool) (quota : Nat) (xs : List ι) : List (ι × Nat) :=
  xs.zipIdx.filter fun x => decide ((xs.take x.2).countP good < quota)

theorem mem_reached_iff {good : ι → Bool} {quota : Nat} {xs : List ι} {x : ι × Nat} :
    x ∈ reached good quota xs ↔ xs[x.2]? = some x.1 ∧ (xs.take x.2).countP good < quota := by
  rw [reached, List.mem_filter, List.mem_zipIdx_iff_getElem?, decide_eq_true_iff]

theorem reached_zero (good : ι → Bool) (xs : List ι) : reached good 0 xs = [] := by
  simp [reached]

/-- The first member is reached.  If it is good it uses up one of the quota for those after
it. -/
theorem reached_cons (good : ι → Bool) (quota : Nat) (x : ι) (xs : List ι) :
    reached good (quota + 1) (x :: xs) =
      (x, 0) :: (reached good (if good x then quota else quota + 1) xs).map
        fun y => (y.1, y.2 + 1) := by
  have hplaces : (x :: xs).zipIdx = (x, 0) :: xs.zipIdx.map fun y => (y.1, y.2 + 1) := by
    rw [List.zipIdx_cons, List.zipIdx_succ]
  rw [reached, reached, hplaces, List.filter_cons_of_pos (by simp), List.filter_map]
  congr 3
  funext y
  by_cases hx : good x = true <;> simp [hx]

theorem reached_cons_of_ok (outcome : ι → Except ParseError α) {quota : Nat} {x : ι} {value : α}
    (h : outcome x = .ok value) (xs : List ι) :
    reached (fun x => (outcome x).isOk) (quota + 1) (x :: xs) =
      (x, 0) :: (reached (fun x => (outcome x).isOk) quota xs).map fun y => (y.1, y.2 + 1) := by
  have hgood : (outcome x).isOk = true := by
    rw [h]
    rfl
  rw [reached_cons, if_pos hgood]

theorem reached_cons_of_error (outcome : ι → Except ParseError α) {quota : Nat} {x : ι}
    {e : ParseError} (h : outcome x = .error e) (xs : List ι) :
    reached (fun x => (outcome x).isOk) (quota + 1) (x :: xs) =
      (x, 0) ::
        (reached (fun x => (outcome x).isOk) (quota + 1) xs).map fun y => (y.1, y.2 + 1) := by
  have hbad : ¬(outcome x).isOk = true := by
    rw [h]
    exact Bool.false_ne_true
  rw [reached_cons, if_neg hbad]

/-- Where the first good member ends it, no member before one that is reached is good. -/
theorem countP_not_of_mem_reached {good : ι → Bool} {xs : List ι} {x : ι × Nat}
    (h : x ∈ reached good 1 xs) : (xs.take x.2).countP (fun y => !good y) = x.2 := by
  obtain ⟨hmember, hgood⟩ := mem_reached_iff.mp h
  have hnone : (xs.take x.2).countP good = 0 := Nat.lt_one_iff.mp hgood
  obtain ⟨hplace, _⟩ := List.getElem?_eq_some_iff.mp hmember
  have hlength : (xs.take x.2).length = x.2 := List.length_take_of_le (Nat.le_of_lt hplace)
  have hall := List.length_eq_countP_add_countP good (l := xs.take x.2)
  have hnot : (fun y => !good y) = fun y => decide (¬good y = true) := by
    funext y
    cases good y <;> rfl
  rw [hnot]
  omega

/-- Where the first good member ends it, a number is reached where no number before it is good. -/
theorem mem_reached_finRange_iff {count : Nat} {good : Fin count → Bool} {i : Fin count}
    {place : Nat} :
    (i, place) ∈ reached good 1 (List.finRange count) ↔ place = i ∧ ∀ j < i, good j = false := by
  have hplace : (List.finRange count)[place]? = some i ↔ place = i := by
    rw [List.getElem?_eq_some_iff]
    simp only [List.getElem_finRange, Fin.ext_iff, List.length_finRange]
    exact ⟨fun ⟨_, h⟩ => h, fun h => ⟨h ▸ i.isLt, h⟩⟩
  rw [mem_reached_iff, hplace, Nat.lt_one_iff, List.countP_eq_zero]
  refine and_congr_right fun h => ?_
  subst h
  have hmem (j : Fin count) : j ∈ (List.finRange count).take i ↔ j < i := by
    simp only [List.mem_take_iff_getElem, List.getElem_finRange, List.length_finRange]
    constructor
    · rintro ⟨k, hk, rfl⟩
      exact (Nat.lt_min.mp hk).1
    · intro hj
      exact ⟨j, Nat.lt_min.mpr ⟨hj, j.isLt⟩, rfl⟩
  simp only [hmem, Bool.not_eq_true]

theorem isOk_eq_false_iff {ε : Type} {x : Except ε α} :
    x.isOk = false ↔ ∃ e, x = .error e := by
  cases x <;> simp [Except.isOk, Except.toBool]

/-! ## Trials -/

/-- A trial of a rule, with those that were made during it. -/
structure Trial where
  attempt : Attempt
  inside : List Trial

namespace Trial

mutual

/-- The attempts of a trial in the order in which they end. -/
def ended : Trial → List Attempt
  | ⟨attempt, inside⟩ => endedAll inside ++ [attempt]

def endedAll : List Trial → List Attempt
  | [] => []
  | t :: ts => ended t ++ endedAll ts

end

theorem endedAll_eq_flatMap (ts : List Trial) : endedAll ts = ts.flatMap ended := by
  induction ts with
  | nil => rfl
  | cons t ts ih => rw [endedAll, ih, List.flatMap_cons]

theorem endedAll_append (ts us : List Trial) :
    endedAll (ts ++ us) = endedAll ts ++ endedAll us := by
  rw [endedAll_eq_flatMap, endedAll_eq_flatMap, endedAll_eq_flatMap, List.flatMap_append]

/-- What is kept of a trial is what is kept of those inside it, and then of the trial itself. -/
theorem flatMap_ended (tracing : Tracing) (attempt : Attempt) (inside : List Trial) :
    (ended ⟨attempt, inside⟩).flatMap tracing.record =
      (endedAll inside).flatMap tracing.record ++ tracing.record attempt := by
  rw [ended, List.flatMap_append, List.flatMap_singleton]

end Trial

/-- The trials of a rule on a scope.  A child is tried where fewer than the quota of those before
it match.  An alternative is tried where none before it matches, and its number is how many of
them fail. -/
def Rule.trials {α : Type} : Rule α → Scope → List Trial
  | .bind rule next, s =>
    trials rule s ++
      match (rule.eval .silent s).outcome with
      | .ok value => trials (next value) (rule.eval .silent s).scope
      | .error _ => []
  | .attempt rule, s => trials rule s
  | .childrenAtMost quota rule, s =>
    (reached (fun slot => (rule.verdict .silent slot.element).isOk) quota s.children).map
      fun slot =>
        ⟨.child s.element slot.1.element (rule.run .silent slot.1.element).failure,
          trials rule (.ofElement slot.1.element)⟩
  | .choice count rules, s =>
    let good := fun i => ((rules i).eval .silent s).outcome.isOk
    (reached good 1 (List.finRange count)).map fun i =>
      let failed := ((List.finRange count).take i.2).countP fun j => !good j
      ⟨.variant s.element failed ((rules i.1).eval .silent s).failure, trials (rules i.1) s⟩
  | _, _ => []

namespace Rule

/-- The trials of a rule on children, one for each child that is reached. -/
theorem mem_trials_childrenAtMost {quota : Nat} {rule : Rule α} {s : Scope} {t : Trial} :
    t ∈ (childrenAtMost quota rule).trials s ↔
      ∃ place slot, s.children[place]? = some slot ∧
        Slot.matchedBefore (rule.verdict .silent) s.children place < quota ∧
        t = ⟨.child s.element slot.element (rule.run .silent slot.element).failure,
          rule.trials (.ofElement slot.element)⟩ := by
  rw [trials, List.mem_map]
  simp only [mem_reached_iff]
  constructor
  · rintro ⟨⟨slot, place⟩, ⟨hplace, hquota⟩, rfl⟩
    exact ⟨place, slot, hplace, hquota, rfl⟩
  · rintro ⟨place, slot, hplace, hquota, rfl⟩
    exact ⟨⟨slot, place⟩, ⟨hplace, hquota⟩, rfl⟩

/-- The trials of a choice, one for each alternative before which all fail.  Its number is that of
those before it. -/
theorem mem_trials_choice {count : Nat} {rules : Fin count → Rule α} {s : Scope} {t : Trial} :
    t ∈ (choice count rules).trials s ↔
      ∃ i, (∀ j < i, ∃ e, ((rules j).eval .silent s).outcome = .error e) ∧
        t = ⟨.variant s.element i ((rules i).eval .silent s).failure, (rules i).trials s⟩ := by
  have hreached (i : Fin count) (place : Nat) :
      (i, place) ∈ reached (fun i => ((rules i).eval .silent s).outcome.isOk) 1
          (List.finRange count) ↔
        place = i ∧ ∀ j < i, ∃ e, ((rules j).eval .silent s).outcome = .error e := by
    simp only [mem_reached_finRange_iff, isOk_eq_false_iff]
  rw [trials, List.mem_map]
  constructor
  · rintro ⟨⟨i, place⟩, hx, rfl⟩
    obtain ⟨hplace, hbefore⟩ := (hreached i place).mp hx
    subst hplace
    refine ⟨i, hbefore, ?_⟩
    simp only [countP_not_of_mem_reached hx]
  · rintro ⟨i, hbefore, rfl⟩
    have hx := (hreached i i).mpr ⟨rfl, hbefore⟩
    refine ⟨_, hx, ?_⟩
    simp only [countP_not_of_mem_reached hx]

end Rule

/-! ## Runs that keep nothing -/

namespace Run

/-- Two runs that end alike. -/
def EndsLike (r r' : Run α) : Prop :=
  r.outcome = r'.outcome ∧ r.scope = r'.scope

theorem EndsLike.failure_eq {r r' : Run α} (h : r.EndsLike r') : r.failure = r'.failure := by
  rw [failure, failure, h.1]

theorem EndsLike.andThen {r r' : Run β} {next next' : β → Scope → Run α} (h : r.EndsLike r')
    (hnext : ∀ value s, (next value s).EndsLike (next' value s)) :
    (r.andThen next).EndsLike (r'.andThen next') := by
  cases hr : r.outcome with
  | ok value =>
    rw [andThen_of_ok hr, andThen_of_ok (h.1 ▸ hr), ← h.2]
    exact hnext value r.scope
  | error e =>
    rw [andThen_of_error hr, andThen_of_error (h.1 ▸ hr)]
    exact ⟨rfl, h.2⟩

theorem EndsLike.drained {r r' : Run α} (h : r.EndsLike r') : r.drained.EndsLike r'.drained := by
  refine ⟨?_, ?_⟩
  · unfold Run.drained
    rw [← h.1, ← h.2]
    cases hr : r.outcome with
    | error e => exact h.1
    | ok value =>
      cases r.scope.ensureDrained with
      | error e => rfl
      | ok _ => exact h.1
  · rw [drained_scope, drained_scope, h.2]

end Run

/-- Alternatives that end alike make choices that do. -/
theorem Scope.tryVariants_endsLike {s : Scope} {tracing tracing' : Tracing}
    {tried : List ParseError} {run run' : ι → Scope → Run α} (xs : List ι)
    (h : ∀ x, (run x s).EndsLike (run' x s)) :
    (s.tryVariants tracing tried (xs.map run)).EndsLike
      (s.tryVariants tracing' tried (xs.map run')) := by
  induction xs generalizing tried with
  | nil => exact ⟨rfl, rfl⟩
  | cons x xs ih =>
    rw [List.map_cons, List.map_cons]
    cases hr : (run x s).outcome with
    | ok value =>
      rw [tryVariants_cons_of_ok hr, tryVariants_cons_of_ok ((h x).1 ▸ hr)]
      exact ⟨rfl, (h x).2⟩
    | error e =>
      rw [tryVariants_cons_of_error hr, tryVariants_cons_of_error ((h x).1 ▸ hr)]
      exact ih

namespace Rule

theorem eval_choice (tracing : Tracing) (count : Nat) (rules : Fin count → Rule α) (s : Scope) :
    (choice count rules).eval tracing s =
      s.tryVariants tracing [] ((List.finRange count).map fun i => (rules i).eval tracing) := by
  rw [eval, List.finRange, List.map_ofFn]
  rfl

/-- Keeping attempts changes neither the value or error of a rule nor what it leaves. -/
theorem eval_untraced (tracing : Tracing) (rule : Rule α) (s : Scope) :
    (rule.eval tracing s).EndsLike (rule.eval .silent s) := by
  induction rule generalizing s with
  | pure | fail | element | scope | takeAttr | dropAttrsFrom | takeText | dropChildrenNamed
  | ensureDrained | missingChild => exact ⟨rfl, rfl⟩
  | bind rule next ih ihNext => exact (ih s).andThen ihNext
  | attempt rule ih => exact ⟨congrArg Except.ok (ih s).1, (ih s).2⟩
  | childrenAtMost quota rule ih =>
    have hverdict : rule.verdict tracing = rule.verdict .silent :=
      funext fun c => (ih (.ofElement c)).drained.1
    refine ⟨?_, ?_⟩
    · rw [outcome_childrenAtMost, outcome_childrenAtMost, hverdict]
    · rw [scope_childrenAtMost, scope_childrenAtMost, hverdict]
  | choice count rules ih =>
    rw [eval_choice, eval_choice]
    exact Scope.tryVariants_endsLike _ fun i => ih i s

theorem run_untraced (tracing : Tracing) (rule : Rule α) (c : Element) :
    (rule.run tracing c).EndsLike (rule.run .silent c) :=
  (rule.eval_untraced tracing (.ofElement c)).drained

end Rule

/-! ## What is kept -/

@[simp] theorem Run.after_attempts (r : Run α) (earlier : List Attempt) :
    (r.after earlier).attempts = earlier ++ r.attempts :=
  rfl

@[simp] theorem Run.drained_attempts (r : Run α) : r.drained.attempts = r.attempts := by
  unfold drained
  repeat' split
  all_goals rfl

namespace Scope

variable {tracing : Tracing}

/-- A scan keeps an attempt on each child that it reaches, after the attempts of the rule on that
child. -/
theorem attempts_scan (parent : Element) (rule : Element → Run α) (quota : Nat)
    (slots : List (Slot ParseError)) :
    (scan tracing parent rule quota slots).attempts =
      (reached (fun slot => (rule slot.element).outcome.isOk) quota slots).flatMap
        fun slot => childAttempts tracing parent slot.1 (rule slot.1.element) := by
  induction quota, slots using Slot.scan_induction fun c => (rule c).outcome with
  | zero slots =>
    rw [reached_zero]
    cases slots <;> rfl
  | nil quota => rfl
  | ok quota slot slots value h ih =>
    rw [scan_cons_of_ok h,
      reached_cons_of_ok (fun c : Slot ParseError => (rule c.element).outcome) h,
      List.flatMap_cons, List.flatMap_map, ← ih]
  | error quota slot slots e h ih =>
    rw [scan_cons_of_error h,
      reached_cons_of_error (fun c : Slot ParseError => (rule c.element).outcome) h,
      List.flatMap_cons, List.flatMap_map, ← ih]

/-- A choice keeps an attempt for each alternative that it reaches, after the attempts of the
alternative itself. -/
theorem attempts_tryVariants (s : Scope) (tried : List ParseError) (run : ι → Scope → Run α)
    (xs : List ι) :
    (s.tryVariants tracing tried (xs.map run)).attempts =
      (reached (fun x => (run x s).outcome.isOk) 1 xs).flatMap fun x =>
        (run x.1 s).attempts ++
          tracing.record (.variant s.element (tried.length + x.2) (run x.1 s).failure) := by
  induction xs generalizing tried with
  | nil => rfl
  | cons x xs ih =>
    rw [List.map_cons]
    cases hr : (run x s).outcome with
    | ok value =>
      rw [tryVariants_cons_of_ok hr, reached_cons_of_ok (fun x => (run x s).outcome) hr,
        reached_zero]
      exact (List.flatMap_singleton _ _).symm
    | error e =>
      rw [tryVariants_cons_of_error hr, reached_cons_of_error (fun x => (run x s).outcome) hr,
        List.flatMap_cons, List.flatMap_map, Run.after_attempts, ih (tried ++ [e]),
        List.length_append, List.length_singleton]
      simp only [Nat.add_assoc, Nat.add_comm 1]
      rfl

end Scope

/-- A run keeps the attempts of its trials in the order in which they end, or none. -/
theorem Rule.attempts_eval (tracing : Tracing) (rule : Rule α) (s : Scope) :
    (rule.eval tracing s).attempts =
      (Trial.endedAll (rule.trials s)).flatMap tracing.record := by
  induction rule generalizing s with
  | pure | fail | element | scope | takeAttr | dropAttrsFrom | takeText | dropChildrenNamed
  | ensureDrained | missingChild => rfl
  | attempt rule ih => exact ih s
  | bind rule next ih ihNext =>
    obtain ⟨houtcome, hscope⟩ := rule.eval_untraced tracing s
    rw [eval, trials, Trial.endedAll_append, List.flatMap_append, ← ih, ← houtcome, ← hscope]
    cases hr : (rule.eval tracing s).outcome with
    | ok value => rw [Run.andThen_of_ok hr, Run.after_attempts, ihNext]
    | error e =>
      rw [Run.andThen_of_error hr]
      exact (List.append_nil _).symm
  | childrenAtMost quota rule ih =>
    have hends (c : Element) := rule.run_untraced tracing c
    have hverdict : rule.verdict .silent = fun c => (rule.run tracing c).outcome :=
      funext fun c => (hends c).1.symm
    rw [trials, Trial.endedAll_eq_flatMap, List.flatMap_map, List.flatMap_assoc, hverdict]
    refine (Scope.attempts_scan s.element (rule.run tracing) quota s.children).trans ?_
    refine List.flatMap_congr fun slot _ => ?_
    rw [Trial.flatMap_ended, ← ih, ← (hends _).failure_eq, Scope.childAttempts, run,
      Run.drained_attempts]
  | choice count rules ih =>
    have hends (i : Fin count) := (rules i).eval_untraced tracing s
    have hgood : (fun i => ((rules i).eval .silent s).outcome.isOk) =
        fun i => ((rules i).eval tracing s).outcome.isOk :=
      funext fun i => congrArg Except.isOk (hends i).1.symm
    rw [trials, Trial.endedAll_eq_flatMap, List.flatMap_map, List.flatMap_assoc, eval_choice,
      Scope.attempts_tryVariants, hgood]
    refine List.flatMap_congr fun i hi => ?_
    rw [Trial.flatMap_ended, ← ih, ← (hends _).failure_eq, countP_not_of_mem_reached hi,
      List.length_nil, Nat.zero_add]

/-! ## Blocks -/

namespace Attempt

/-- A line that starts with anything but a start of the line of a match is another line. -/
theorem append_ne_matched (start : String) (h : ¬start.toList <+: "| ==> matched.".toList)
    (rest : String) : start ++ rest ≠ "| ==> matched." := by
  intro heq
  refine h ⟨rest.toList, ?_⟩
  rw [← String.toList_append, heq]

theorem matched_notMem_subject (a : Attempt) : "| ==> matched." ∉ a.subject := by
  cases a with
  | child parent tried failure =>
    have hparent := append_ne_matched "[Scope::children_at_most] parent: " (by decide)
    have htried := append_ne_matched "| ==> child: " (by decide)
    simp only [subject, List.mem_cons, List.not_mem_nil, or_false, not_or]
    exact ⟨(hparent _).symm, (htried _).symm⟩
  | variant element index failure =>
    have helement := append_ne_matched "[Scope::one_of] element: " (by decide)
    have hindex := append_ne_matched "| ==> variant: " (by decide)
    simp only [subject, List.mem_cons, List.not_mem_nil, or_false, not_or]
    exact ⟨(helement _).symm, (hindex _).symm⟩

/-- A block has the line of a match where its attempt matched and nowhere else, whatever the
names of the elements and the lines of the error are. -/
theorem matched_mem_blockLines_iff (a : Attempt) :
    "| ==> matched." ∈ a.blockLines ↔ a.failure = none := by
  cases hfailure : a.failure with
  | none => simp [blockLines, ending, hfailure]
  | some error =>
    have hfootnote : "| ==> matched." ≠ footnote := by decide
    have herror := append_ne_matched "|  |  " (by decide)
    simp [blockLines, ending, hfailure, a.matched_notMem_subject, hfootnote, herror]

/-- The block of an attempt that failed has every line of its error. -/
theorem infix_blockLines {a : Attempt} {error : ParseError} (h : a.failure = some error) :
    ("| ==> !!! did not match:" :: error.lines.map ("|  |  " ++ ·)) <:+: a.blockLines := by
  refine ⟨a.subject ++ ["|"], [footnote, ""], ?_⟩
  rw [blockLines, ending, h]

/-! ### Printed blocks

A line of an error or the introduction of an element may itself hold a line break, so a line of
the printed text says less than the place where it is printed.  A block is therefore told part by
part: what was tried, how it ended, and the note. -/

/-- What is printed before the outcome of an attempt. -/
def heading : Attempt → String
  | .child parent tried _ =>
    "[Scope::children_at_most] parent: " ++ parent.intro ++ "\n" ++
      "| ==> child: " ++ tried.intro ++ "\n" ++ "|\n"
  | .variant element index _ =>
    "[Scope::one_of] element: " ++ element.intro ++ "\n" ++
      "| ==> variant: " ++ toString index ++ "\n" ++ "|\n"

/-- What is printed of an error. -/
def mismatch (error : ParseError) : String :=
  "| ==> !!! did not match:\n" ++
    String.join (error.lines.map fun line => "|  |  " ++ line ++ "\n")

/-- What is printed after the outcome of an attempt. -/
def note : String :=
  "= note: this trace was output as a debugging aid " ++
    "because `cfg(feature = \"parser-trace-stderr\")`.\n\n"

theorem join_subject (a : Attempt) :
    String.join ((a.subject ++ ["|"]).map (· ++ "\n")) = a.heading := by
  cases a with
  | child parent tried failure =>
    show String.join [_ ++ "\n", _ ++ "\n", "|\n"] = _
    unfold heading
    simp only [String.join_cons, String.join_nil, String.append_empty, String.append_assoc]
  | variant element index failure =>
    show String.join [_ ++ "\n", ("| ==> variant: " ++ toString index) ++ "\n", "|\n"] = _
    unfold heading
    simp only [String.join_cons, String.join_nil, String.append_empty, String.append_assoc]

theorem join_footnote : String.join ([footnote, ""].map (· ++ "\n")) = note := by
  decide

/-- A block is what was tried, how it ended, and the note. -/
theorem block_eq (a : Attempt) :
    a.block = a.heading ++ String.join (a.ending.map (· ++ "\n")) ++ note := by
  rw [block, blockLines, List.map_append, List.map_append, String.join_append,
    String.join_append, join_subject, join_footnote]

theorem block_of_matched {a : Attempt} (h : a.failure = none) :
    a.block = a.heading ++ "| ==> matched.\n" ++ note := by
  have hline : String.join (["| ==> matched."].map (· ++ "\n")) = "| ==> matched.\n" := by decide
  rw [block_eq, ending, h, hline]

theorem block_of_failed {a : Attempt} {error : ParseError} (h : a.failure = some error) :
    a.block = a.heading ++ mismatch error ++ note := by
  rw [block_eq, ending, h, List.map_cons, List.map_map, String.join_cons]
  rfl

/-- Texts of which neither starts as the other does are two texts, whatever comes after that. -/
theorem append_ne_append {start start' : String} (h : ¬start.toList <+: start'.toList)
    (h' : ¬start'.toList <+: start.toList) (rest rest' : String) :
    start ++ rest ≠ start' ++ rest' := by
  intro heq
  have hchars : start.toList ++ rest.toList = start'.toList ++ rest'.toList := by
    rw [← String.toList_append, heq, String.toList_append]
  rcases List.append_eq_append_iff.mp hchars with ⟨more, hmore, _⟩ | ⟨more, hmore, _⟩
  · exact h ⟨more, hmore.symm⟩
  · exact h' ⟨more, hmore.symm⟩

/-- The block of an attempt that failed is not printed as that of a match, whatever the lines of
the error are. -/
theorem block_eq_matched_iff (a : Attempt) :
    a.block = a.heading ++ "| ==> matched.\n" ++ note ↔ a.failure = none := by
  refine ⟨fun hblock => ?_, block_of_matched⟩
  cases hfailure : a.failure with
  | none => rfl
  | some error =>
    rw [block_of_failed hfailure, String.append_assoc, String.append_assoc,
      String.append_right_inj] at hblock
    unfold mismatch at hblock
    rw [String.append_assoc] at hblock
    exact absurd hblock (append_ne_append (by decide) (by decide) _ _)

end Attempt

/-! ## The trace of a run -/

theorem Run.failure_eq_none_iff {r : Run α} :
    r.failure = none ↔ ∃ value, r.outcome = .ok value := by
  unfold failure
  cases r.outcome <;> simp

namespace Rule

/-- An attempt on a child matched where the rule has a value and leaves nothing of the child. -/
theorem failure_run_eq_none_iff {tracing : Tracing} {rule : Rule α} {c : Element} :
    (rule.run tracing c).failure = none ↔
      (∃ value, (rule.eval tracing (.ofElement c)).outcome = .ok value) ∧
        (rule.eval tracing (.ofElement c)).scope.isDrained = true := by
  rw [Run.failure_eq_none_iff, run]
  simp only [Run.drained_eq_ok_iff, exists_and_right]

/-- The trace of a run of a rule on an element.

* It has one block for each trial of the rule, those of trials that were made inside another
  before its own, whether or not what they were part of failed.
* A block says what was tried, with the number of an alternative.  It goes on to say that its
  attempt matched, or shows its error in full.
* A child did not match where something of it was left.
* A child is tried where fewer than the quota of those before it match, and an alternative where
  all before it fail, as many as its number says.
* Without a trace nothing is kept, and the value or error and the scope are the same. -/
theorem trace_run (rule : Rule α) (e : Element) :
    let attempts := Trial.endedAll (rule.trials (.ofElement e))
    (rule.run .full e).attempts = attempts ∧
      Attempt.trace (rule.run .full e).attempts = String.join (attempts.map Attempt.block) ∧
      (∀ a ∈ attempts, ("| ==> matched." ∈ a.blockLines ↔ a.failure = none) ∧
        ∀ error, a.failure = some error →
          ("| ==> !!! did not match:" :: error.lines.map ("|  |  " ++ ·)) <:+: a.blockLines) ∧
      (∀ a ∈ attempts,
        (a.block = a.heading ++ "| ==> matched.\n" ++ Attempt.note ↔ a.failure = none) ∧
        ∀ error, a.failure = some error →
          a.block = a.heading ++ Attempt.mismatch error ++ Attempt.note) ∧
      (∀ {β : Type} (tried : Rule β) (c : Element),
        (tried.run .silent c).failure = none ↔
          (∃ value, (tried.eval .silent (.ofElement c)).outcome = .ok value) ∧
            (tried.eval .silent (.ofElement c)).scope.isDrained = true) ∧
      (∀ {β : Type} (quota : Nat) (tried : Rule β) (s : Scope) (t : Trial),
        t ∈ (childrenAtMost quota tried).trials s ↔
          ∃ place slot, s.children[place]? = some slot ∧
            Slot.matchedBefore (tried.verdict .silent) s.children place < quota ∧
            t = ⟨.child s.element slot.element (tried.run .silent slot.element).failure,
              tried.trials (.ofElement slot.element)⟩) ∧
      (∀ {β : Type} (count : Nat) (rules : Fin count → Rule β) (s : Scope) (t : Trial),
        t ∈ (choice count rules).trials s ↔
          ∃ i, (∀ j < i, ∃ e, ((rules j).eval .silent s).outcome = .error e) ∧
            t = ⟨.variant s.element i ((rules i).eval .silent s).failure,
              (rules i).trials s⟩) ∧
      (rule.run .silent e).attempts = [] ∧
      (rule.run .full e).outcome = (rule.run .silent e).outcome ∧
      (rule.run .full e).scope = (rule.run .silent e).scope := by
  intro attempts
  have hattempts : (rule.run .full e).attempts = attempts := by
    rw [run, Run.drained_attempts, attempts_eval]
    exact List.flatMap_singleton' attempts
  have hsilent : (rule.run .silent e).attempts = [] := by
    rw [run, Run.drained_attempts, attempts_eval, List.flatMap_eq_nil_iff]
    intro a _
    rfl
  obtain ⟨houtcome, hscope⟩ := rule.run_untraced .full e
  refine ⟨hattempts, congrArg Attempt.trace hattempts, fun a _ => ?_, fun a _ => ?_,
    fun _ _ => failure_run_eq_none_iff, fun _ _ _ _ => mem_trials_childrenAtMost,
    fun _ _ _ _ => mem_trials_choice, hsilent, houtcome, hscope⟩
  · exact ⟨a.matched_mem_blockLines_iff, fun _ => Attempt.infix_blockLines⟩
  · exact ⟨a.block_eq_matched_iff, fun _ => Attempt.block_of_failed⟩

/-- A box of three children without anything in them. -/
def box : Element :=
  ⟨"box", [], [⟨"b", [], [], none⟩, ⟨"a", [], [], none⟩, ⟨"c", [], [], none⟩], none⟩

/-- Takes a child `b`, after a first alternative that takes a child `a` and then fails. -/
def retried : Rule (List Unit) :=
  oneOf [childrenAtMost 1 (matchName "a") >>= fun _ => fail "no", childrenAtMost 1 (matchName "b")]

/-- The attempts of the alternative that failed are in the trace, the child on which it failed is
tried again, and none is made on the last child. -/
theorem trace_run_box :
    (retried.run .full box).attempts =
        [.child box ⟨"b", [], [], none⟩ (some (.other "Element name is not a")),
          .child box ⟨"a", [], [], none⟩ none, .variant box 0 (some (.other "no")),
          .child box ⟨"b", [], [], none⟩ none, .variant box 1 none] ∧
      Attempt.trace (retried.run .full box).attempts =
        "[Scope::children_at_most] parent: box\n" ++ "| ==> child: b\n" ++ "|\n" ++
          "| ==> !!! did not match:\n" ++ "|  |  Element name is not a\n" ++ Attempt.note ++
          "[Scope::children_at_most] parent: box\n" ++ "| ==> child: a\n" ++ "|\n" ++
          "| ==> matched.\n" ++ Attempt.note ++
          "[Scope::one_of] element: box\n" ++ "| ==> variant: 0\n" ++ "|\n" ++
          "| ==> !!! did not match:\n" ++ "|  |  no\n" ++ Attempt.note ++
          "[Scope::children_at_most] parent: box\n" ++ "| ==> child: b\n" ++ "|\n" ++
          "| ==> matched.\n" ++ Attempt.note ++
          "[Scope::one_of] element: box\n" ++ "| ==> variant: 1\n" ++ "|\n" ++
          "| ==> matched.\n" ++ Attempt.note ∧
      (retried.run .silent box).attempts = [] := by
  obtain ⟨hattempts, htrace, _, _, _, _, _, hsilent, _⟩ := trace_run retried box
  rw [htrace, hattempts]
  exact ⟨rfl, by decide +kernel, hsilent⟩

end Rule

end ElementGrammar
