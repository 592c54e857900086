import ElementGrammar.Proofs.Rule.Read
import ElementGrammar.Proofs.Text.Count
import ElementGrammar.Xsd.Grammar

/-!
# Numbers of occurrences and lengths

The rules of the grammar that read a number take the first attribute of a name and read its
value as a count.  They differ in what a missing attribute and the value `unbounded` stand for.

* `Scope.HasFirst` is the first attribute of a name and the scope without it.
* `Rule.countOutcome` is what a value is read as, and `Run.Counts` what a run says that has this
  outcome (`Run.counts_of_countOutcome`).
* `Xsd.eval_minOccurs`, `Xsd.eval_maxOccurs` and `Xsd.eval_facet` are the runs of the rules.

`Xsd.occurrences_and_lengths_exact` puts these together.
-/

namespace ElementGrammar

variable {α : Type} {s left : Scope} {key w : String}

/-! ## The first attribute of a name -/

/-- The first attribute of a name has a value, and without it a scope is `left`. -/
def Scope.HasFirst (s : Scope) (key value : String) (left : Scope) : Prop :=
  ∃ before after, s.attrs = before ++ ⟨key, value⟩ :: after ∧ (∀ a ∈ before, a.name ≠ key) ∧
    left = { s with attrs := before ++ after }

/-- No attribute of a scope has a name. -/
def Scope.Lacks (s : Scope) (key : String) : Prop :=
  ∀ a ∈ s.attrs, a.name ≠ key

/-- A scope lacks a name or has a first attribute of it. -/
theorem Scope.lacks_or_hasFirst (s : Scope) (key : String) :
    s.Lacks key ∨ ∃ value left, s.HasFirst key value left := by
  by_cases hlacks : s.Lacks key
  · exact Or.inl hlacks
  · obtain ⟨a, ha, hname⟩ : ∃ a ∈ s.attrs, a.name = key := by simpa [Scope.Lacks] using hlacks
    obtain ⟨first, before, after, hbefore, hfirst, hattrs, _⟩ :=
      List.exists_of_eraseP (p := (·.name == key)) ha (by simpa using hname)
    have hkey : first.name = key := by simpa using hfirst
    subst hkey
    exact Or.inr ⟨first.value, _, before, after, hattrs, by simpa using hbefore, rfl⟩

theorem Scope.HasFirst.takeAttr_eq (h : s.HasFirst key w left) :
    s.takeAttr key = (some w, left) := by
  obtain ⟨before, after, hattrs, hbefore, rfl⟩ := h
  rw [Scope.takeAttr_eq, hattrs, Attributes.value?_append_cons hbefore,
    Attributes.without_append_cons hbefore]

theorem Scope.Lacks.takeAttr_eq (h : s.Lacks key) : s.takeAttr key = (none, s) := by
  have hnone := Attributes.value?_eq_none_iff.mpr h
  rw [Scope.takeAttr_eq, hnone, Attributes.without_of_value?_none hnone]

/-! ## Values that are read as counts -/

/-- What a value under a name is read as: the number that it spells, put into a form, and
otherwise an error that shows the value. -/
def Rule.countOutcome (form : Nat → α) (key w : String) : Except ParseError α :=
  match Text.readCount w with
  | .ok n => .ok (form n)
  | .error e => .error (.other (invalidValue key w e))

/-- A run takes an attribute with a value, and has the number that the value spells. -/
structure Run.Counts (r : Run α) (form : Nat → α) (key w : String) (left : Scope) : Prop where
  ok_iff : ∀ n, r.outcome = .ok (form n) ↔ Text.Spells w n
  error : (∀ n, ¬Text.Spells w n) →
    ∃ e, Text.readCount w = .error e ∧ r.outcome = .error (.other (Rule.invalidValue key w e))
  scope : r.scope = left
  attempts : r.attempts = []

theorem Run.counts_of_countOutcome {form : Nat → α} (hform : form.Injective) :
    Run.Counts ⟨Rule.countOutcome form key w, left, []⟩ form key w left where
  ok_iff n := by
    show Rule.countOutcome form key w = .ok (form n) ↔ _
    rw [← Text.readCount_eq_ok_iff_spells, Rule.countOutcome]
    cases Text.readCount w with
    | ok m =>
      rw [Except.ok.injEq, Except.ok.injEq]
      exact hform.eq_iff
    | error e => exact iff_of_false nofun nofun
  error h := by
    cases hread : Text.readCount w with
    | ok n => exact absurd (Text.readCount_eq_ok_iff_spells.mp hread) (h n)
    | error e =>
      refine ⟨e, rfl, ?_⟩
      show Rule.countOutcome form key w = _
      rw [Rule.countOutcome, hread]
  scope := rfl
  attempts := rfl

namespace Rule

variable {β : Type} (tracing : Tracing)

theorem eval_bind_of_ok {rule : Rule β} {value : β}
    (h : rule.eval tracing s = ⟨.ok value, left, []⟩) (next : β → Rule α) :
    (rule >>= next).eval tracing s = (next value).eval tracing left := by
  rw [eval_bind, h]
  rfl

theorem eval_takeAttr (h : s.HasFirst key w left) :
    (takeAttr key).eval tracing s = ⟨.ok (some w), left, []⟩ := by
  rw [eval, h.takeAttr_eq]

theorem eval_takeAttr_of_lacks (h : s.Lacks key) :
    (takeAttr key).eval tracing s = ⟨.ok none, s, []⟩ := by
  rw [eval, h.takeAttr_eq]

theorem eval_attr (h : s.HasFirst key w left) :
    (attr key).eval tracing s = ⟨.ok w, left, []⟩ :=
  eval_bind_of_ok tracing (eval_takeAttr tracing h) _

theorem eval_readCount (key w : String) (s : Scope) :
    (readValue Text.readCount key w).eval tracing s = ⟨countOutcome id key w, s, []⟩ := by
  unfold countOutcome readValue
  cases Text.readCount w <;> rfl

theorem eval_readCount_bind (key w : String) (form : Nat → α) (s : Scope) :
    (readValue Text.readCount key w >>= fun n => pure (form n)).eval tracing s =
      ⟨countOutcome form key w, s, []⟩ := by
  unfold countOutcome readValue
  cases Text.readCount w <;> rfl

/-- An optional attribute that is there is read as a count. -/
theorem eval_attrReadOpt (h : s.HasFirst key w left) :
    (attrReadOpt Text.readCount key).eval tracing s = ⟨countOutcome some key w, left, []⟩ :=
  (eval_bind_of_ok tracing (eval_takeAttr tracing h) _).trans
    (eval_readCount_bind tracing key w some left)

end Rule

/-! ## The rules of the grammar -/

namespace Xsd

variable (tracing : Tracing)

theorem eval_minOccurs (h : s.HasFirst "minOccurs" w left) :
    minOccurs.eval tracing s = ⟨Rule.countOutcome id "minOccurs" w, left, []⟩ := by
  unfold minOccurs
  rw [Rule.eval_bind, Rule.eval_attrReadOpt tracing h, Rule.countOutcome, Rule.countOutcome]
  cases Text.readCount w <;> rfl

theorem eval_minOccurs_of_lacks (h : s.Lacks "minOccurs") :
    minOccurs.eval tracing s = ⟨.ok 1, s, []⟩ := by
  have hread : (Rule.attrReadOpt Text.readCount "minOccurs").eval tracing s =
      ⟨.ok none, s, []⟩ :=
    Rule.eval_bind_of_ok tracing (Rule.eval_takeAttr_of_lacks tracing h) _
  exact Rule.eval_bind_of_ok tracing hread _

theorem eval_maxOccurs_unbounded (h : s.HasFirst "maxOccurs" "unbounded" left) :
    maxOccurs.eval tracing s = ⟨.ok none, left, []⟩ :=
  Rule.eval_bind_of_ok tracing (Rule.eval_takeAttr tracing h) _

theorem eval_maxOccurs (h : s.HasFirst "maxOccurs" w left) (hw : w ≠ "unbounded") :
    maxOccurs.eval tracing s = ⟨Rule.countOutcome some "maxOccurs" w, left, []⟩ := by
  refine (Rule.eval_bind_of_ok tracing (Rule.eval_takeAttr tracing h) _).trans ?_
  simp only [if_neg hw]
  exact Rule.eval_readCount_bind tracing "maxOccurs" w some left

theorem eval_maxOccurs_of_lacks (h : s.Lacks "maxOccurs") :
    maxOccurs.eval tracing s = ⟨.ok (some 1), s, []⟩ :=
  Rule.eval_bind_of_ok tracing (Rule.eval_takeAttr_of_lacks tracing h) _

theorem eval_facet (h : s.HasFirst "value" w left) :
    (facet s.element.name).eval tracing s = ⟨Rule.countOutcome id "value" w, left, []⟩ := by
  have hname : (Rule.matchName s.element.name).eval tracing s = ⟨.ok (), s, []⟩ := by
    show (if s.element.name = s.element.name then pure () else _ : Rule Unit).eval tracing s = _
    rw [if_pos rfl, Rule.eval_pure]
  have hread : (Rule.attrRead Text.readCount "value").eval tracing s =
      ⟨Rule.countOutcome id "value" w, left, []⟩ :=
    (Rule.eval_bind_of_ok tracing (Rule.eval_attr tracing h) _).trans
      (Rule.eval_readCount tracing "value" w left)
  exact (Rule.eval_bind_of_ok tracing hname _).trans hread

/-- What the rules that read a number make of the first attribute of their name.

* It is taken out of the scope, whether it can be read or not, and the rest of the scope is as it
  was.
* The value is the number that it spells.  Where it spells none the run has an error that shows
  it.
* The greatest number of occurrences is none at all for `unbounded`, and only for that.  For every
  other value the run is that of an optional attribute that is read as a count.
* Without the attribute an occurrence is one.  Every scope has a first attribute of a name or
  none. -/
theorem occurrences_and_lengths_exact (s left : Scope) (w : String) :
    (s.HasFirst "minOccurs" w left → (minOccurs.eval tracing s).Counts id "minOccurs" w left) ∧
      (s.HasFirst "maxOccurs" w left →
        ((maxOccurs.eval tracing s).outcome = .ok none ↔ w = "unbounded") ∧
          (maxOccurs.eval tracing s).scope = left ∧
          (w ≠ "unbounded" →
            (maxOccurs.eval tracing s).Counts some "maxOccurs" w left ∧
              maxOccurs.eval tracing s =
                (Rule.attrReadOpt Text.readCount "maxOccurs").eval tracing s)) ∧
      (∀ name, s.element.name = name → s.HasFirst "value" w left →
        ((facet name).eval tracing s).Counts id "value" w left) ∧
      (s.Lacks "minOccurs" → minOccurs.eval tracing s = ⟨.ok 1, s, []⟩) ∧
      (s.Lacks "maxOccurs" → maxOccurs.eval tracing s = ⟨.ok (some 1), s, []⟩) ∧
      ∀ key, s.Lacks key ∨ ∃ value left, s.HasFirst key value left := by
  refine ⟨fun h => ?_, fun h => ?_, ?_, eval_minOccurs_of_lacks tracing,
    eval_maxOccurs_of_lacks tracing, s.lacks_or_hasFirst⟩
  · rw [eval_minOccurs tracing h]
    exact Run.counts_of_countOutcome Function.injective_id
  · by_cases hw : w = "unbounded"
    · subst hw
      rw [eval_maxOccurs_unbounded tracing h]
      exact ⟨iff_of_true rfl rfl, rfl, fun hne => absurd rfl hne⟩
    · have hrun := eval_maxOccurs tracing h hw
      rw [hrun, Rule.eval_attrReadOpt tracing h]
      refine ⟨iff_of_false ?_ hw, rfl, fun _ => ?_⟩
      · show Rule.countOutcome some "maxOccurs" w ≠ .ok none
        unfold Rule.countOutcome
        cases Text.readCount w <;> nofun
      · exact ⟨Run.counts_of_countOutcome (Option.some_injective Nat), rfl⟩
  · rintro name rfl h
    rw [eval_facet tracing h]
    exact Run.counts_of_countOutcome Function.injective_id

/-- A scope with two least numbers of occurrences, and a greatest one that is one too large. -/
def occurring : Scope :=
  ⟨⟨"sequence", [], [], none⟩,
    [⟨"id", "s"⟩, ⟨"minOccurs", "+00042"⟩, ⟨"maxOccurs", "4294967296"⟩, ⟨"minOccurs", "7"⟩], [],
    none⟩

/-- The first least number is read and taken, and the greatest one is taken with an error. -/
theorem occurrences_and_lengths_exact_occurring :
    (minOccurs.eval .silent occurring).outcome = .ok 42 ∧
      (minOccurs.eval .silent occurring).scope.attrs =
        [⟨"id", "s"⟩, ⟨"maxOccurs", "4294967296"⟩, ⟨"minOccurs", "7"⟩] ∧
      (maxOccurs.eval .silent occurring).outcome =
        .error (.other ("Attribute maxOccurs has invalid value 4294967296: "
          ++ "number too large to fit in target type")) ∧
      (maxOccurs.eval .silent occurring).scope.attrs =
        [⟨"id", "s"⟩, ⟨"minOccurs", "+00042"⟩, ⟨"minOccurs", "7"⟩] := by
  have hleast := (occurrences_and_lengths_exact .silent occurring _ "+00042").1
    ⟨[⟨"id", "s"⟩], [⟨"maxOccurs", "4294967296"⟩, ⟨"minOccurs", "7"⟩], rfl, by simp, rfl⟩
  obtain ⟨_, _, hgreatest⟩ := (occurrences_and_lengths_exact .silent occurring _ "4294967296").2.1
    ⟨[⟨"id", "s"⟩, ⟨"minOccurs", "+00042"⟩], [⟨"minOccurs", "7"⟩], rfl, by simp, rfl⟩
  have hgreatest := (hgreatest (by decide)).1
  have hspells : Text.Spells "+00042" 42 :=
    ⟨"00042".toList, Or.inr rfl, by simp, by simp, rfl, by simp⟩
  have hread : Text.readCount "4294967296" = .error .tooLarge := by decide
  have hspellsNone : ∀ n, ¬Text.Spells "4294967296" n := by
    intro n h
    rw [← Text.readCount_eq_ok_iff_spells, hread] at h
    cases h
  obtain ⟨e, he, hout⟩ := hgreatest.error hspellsNone
  cases hread.symm.trans he
  rw [hleast.scope, hgreatest.scope]
  exact ⟨(hleast.ok_iff 42).mpr hspells, rfl, hout, rfl⟩

end Xsd

end ElementGrammar
