import ElementGrammar.Proofs.Rule.Run
import ElementGrammar.Proofs.Rule.Shown

/-!
# Rules that break no line

An error has in it what the rule says and what the rule has read.  Attributes are read as they
are, so a message that quotes one is on one line only where the attribute is.

* `Rule.Plain` is that each message of a rule is on one line where the attributes that it has
  read are.  It is computed from the rule as a weakest precondition: what is known of a value
  goes to the rule that comes after it.
* `Rule.eval_plain` is the induction over rules: a run on a plain scope leaves a plain scope and
  ends with a plain error, if with an error.  `Rule.run_plain` is this for whole elements.
* The combinators are plain where the names and texts that they are given are on one line.
-/

namespace ElementGrammar

open Text (OneLine oneLine_append)

variable {α β : Type}

/-! ## Plain scopes -/

/-- A child that is plain, as are its errors. -/
structure Slot.Plain (slot : Slot ParseError) : Prop where
  element : slot.element.Plain
  errors : ∀ e ∈ slot.errors, e.Plain

/-- A scope whose attributes and children are plain, whatever its text is. -/
structure Scope.Plain (s : Scope) : Prop where
  element : s.element.Plain
  attrs : ∀ a ∈ s.attrs, a.Plain
  children : ∀ slot ∈ s.children, slot.Plain

theorem Slot.Plain.withError {slot : Slot ParseError} {e : ParseError} (h : slot.Plain)
    (he : e.Plain) : (slot.withError e).Plain where
  element := h.element
  errors := by
    intro e' he'
    rcases List.mem_append.mp he' with he' | he'
    · exact h.errors e' he'
    · rw [List.mem_singleton.mp he']
      exact he

namespace Scope

theorem plain_ofElement {e : Element} (h : e.Plain) : (ofElement e).Plain where
  element := h
  attrs := h.attrs
  children := by
    intro slot hslot
    obtain ⟨c, hc, rfl⟩ := List.mem_map.mp hslot
    exact ⟨h.inside c hc, fun _ he => absurd he List.not_mem_nil⟩

namespace Plain

variable {s : Scope}

theorem takeAttr (h : s.Plain) (key : String) :
    (s.takeAttr key).2.Plain ∧ ∀ value ∈ (s.takeAttr key).1, OneLine value := by
  unfold Scope.takeAttr
  split
  · exact ⟨h, fun _ hvalue => by cases hvalue⟩
  · rename_i a ha
    refine ⟨⟨h.element, fun b hb => h.attrs b (List.mem_of_mem_eraseP hb), h.children⟩, ?_⟩
    intro value hvalue
    rw [← Option.mem_some_iff.mp hvalue]
    exact (h.attrs a (List.mem_of_find?_eq_some ha)).2

theorem dropAttrsFrom (h : s.Plain) (start : String) : (s.dropAttrsFrom start).Plain :=
  ⟨h.element, fun a ha => h.attrs a (List.mem_of_mem_filter ha), h.children⟩

theorem takeText (h : s.Plain) : s.takeText.2.Plain :=
  ⟨h.element, h.attrs, h.children⟩

theorem dropChildrenNamed (h : s.Plain) (name : String) : (s.dropChildrenNamed name).Plain :=
  ⟨h.element, h.attrs, fun slot hslot => h.children slot (List.mem_of_mem_filter hslot)⟩

/-! ### Errors made of a scope -/

theorem remainder (h : s.Plain) : s.remainder.Plain :=
  .remainingItems h.element h.attrs (fun slot hslot => (h.children slot hslot).element)
    fun slot hslot => (h.children slot hslot).errors

theorem missingChild (h : s.Plain) : s.missingChild.Plain := by
  have hblames : ∀ blame ∈ s.lastErrors, blame.child.Plain ∧ blame.error.Plain := by
    intro blame hblame
    obtain ⟨slot, hslot, hmap⟩ := List.mem_filterMap.mp hblame
    obtain ⟨e, he, rfl⟩ := Option.map_eq_some_iff.mp hmap
    have hplain := h.children slot hslot
    exact ⟨hplain.element, hplain.errors e (List.mem_of_getLast? he)⟩
  exact .noMatchingChild h.element (fun blame hblame => (hblames blame hblame).1)
    fun blame hblame => (hblames blame hblame).2

theorem ensureDrained {e : ParseError} (h : s.Plain) (he : s.ensureDrained = .error e) :
    e.Plain := by
  unfold Scope.ensureDrained at he
  split at he
  · cases he
  · injection he with he
    exact he ▸ h.remainder

end Plain

end Scope

/-! ## Plain runs -/

/-- A run that leaves a plain scope, and that ends with a value of a kind or with a plain
error. -/
structure Run.Plain (r : Run α) (post : α → Prop) : Prop where
  scope : r.scope.Plain
  value : ∀ value, r.outcome = .ok value → post value
  error : ∀ e, r.outcome = .error e → e.Plain

namespace Run.Plain

variable {s : Scope} {post : α → Prop}

theorem of_ok {value : α} {attempts : List Attempt} (hs : s.Plain) (hvalue : post value) :
    Run.Plain ⟨.ok value, s, attempts⟩ post where
  scope := hs
  value := by
    intro value' hvalue'
    injection hvalue' with hvalue'
    exact hvalue' ▸ hvalue
  error := by
    intro e he
    cases he

theorem of_error {e : ParseError} {attempts : List Attempt} (hs : s.Plain) (he : e.Plain) :
    Run.Plain ⟨.error e, s, attempts⟩ post where
  scope := hs
  value := by
    intro value hvalue
    cases hvalue
  error := by
    intro e' he'
    injection he' with he'
    exact he' ▸ he

theorem after {r : Run α} (h : r.Plain post) (earlier : List Attempt) :
    (r.after earlier).Plain post :=
  ⟨h.scope, h.value, h.error⟩

theorem andThen {r : Run β} {next : β → Scope → Run α} {middle : β → Prop}
    (h : r.Plain middle) (hnext : ∀ value, middle value → (next value r.scope).Plain post) :
    (r.andThen next).Plain post := by
  cases ho : r.outcome with
  | error e =>
    rw [Run.andThen_of_error ho]
    exact of_error h.scope (h.error e ho)
  | ok value =>
    rw [Run.andThen_of_ok ho]
    exact (hnext value (h.value value ho)).after r.attempts

theorem drained {r : Run α} (h : r.Plain post) : r.drained.Plain post where
  scope := by
    rw [Run.drained_scope]
    exact h.scope
  value := fun value hvalue => h.value value (Run.drained_eq_ok_iff.mp hvalue).1
  error := by
    intro e he
    rcases Run.drained_eq_error_iff.mp he with he | ⟨_, _, rfl⟩
    · exact h.error e he
    · exact h.scope.remainder

end Run.Plain

namespace Scope

/-- Trying a rule on plain children takes values of a kind and leaves plain children. -/
theorem scan_plain (tracing : Tracing) (parent : Element) {rule : Element → Run α}
    {post : α → Prop} (hrule : ∀ x, x.Plain → (rule x).Plain post) (quota : Nat)
    {slots : List (Slot ParseError)} (hslots : ∀ slot ∈ slots, slot.Plain) :
    (∀ value ∈ (scan tracing parent rule quota slots).values, post value) ∧
      ∀ slot ∈ (scan tracing parent rule quota slots).kept, slot.Plain := by
  induction slots generalizing quota with
  | nil => cases quota <;> simp [scan]
  | cons slot slots ih =>
    obtain ⟨hslot, hrest⟩ := List.forall_mem_cons.mp hslots
    cases quota with
    | zero => exact ⟨fun _ hvalue => absurd hvalue List.not_mem_nil, hslots⟩
    | succ quota =>
      have hrun := hrule slot.element hslot.element
      cases ho : (rule slot.element).outcome with
      | ok value =>
        rw [scan_cons_of_ok ho]
        obtain ⟨hvalues, hkept⟩ := ih quota hrest
        exact ⟨List.forall_mem_cons.mpr ⟨hrun.value value ho, hvalues⟩, hkept⟩
      | error e =>
        rw [scan_cons_of_error ho]
        obtain ⟨hvalues, hkept⟩ := ih (quota + 1) hrest
        exact ⟨hvalues, List.forall_mem_cons.mpr ⟨hslot.withError (hrun.error e ho), hkept⟩⟩

theorem tryVariants_plain {s : Scope} (hs : s.Plain) (tracing : Tracing)
    {tried : List ParseError} (htried : ∀ e ∈ tried, e.Plain) {rules : List (Scope → Run α)}
    {post : α → Prop} (hrules : ∀ rule ∈ rules, (rule s).Plain post) :
    (s.tryVariants tracing tried rules).Plain post := by
  induction rules generalizing tried with
  | nil => exact .of_error hs (.noMatchingVariant hs.element htried)
  | cons rule rules ih =>
    obtain ⟨hrule, hrest⟩ := List.forall_mem_cons.mp hrules
    cases ho : (rule s).outcome with
    | ok value =>
      rw [tryVariants_cons_of_ok ho]
      exact .of_ok hrule.scope (hrule.value value ho)
    | error e =>
      rw [tryVariants_cons_of_error ho]
      refine (ih ?_ hrest).after _
      intro e' he'
      rcases List.mem_append.mp he' with he' | he'
      · exact htried e' he'
      · rw [List.mem_singleton.mp he']
        exact hrule.error e ho

end Scope

/-! ## Plain rules -/

namespace Rule

/-- Where the attributes that a rule reads are on one line so are its messages, and its value
satisfies `post`. -/
def Plain {α : Type} : Rule α → (α → Prop) → Prop
  | .pure value, post => post value
  | .bind rule next, post => Plain rule fun value => Plain (next value) post
  | .fail message, _ => OneLine message
  | .element, post => ∀ e, e.Plain → post e
  | .scope, post => ∀ s, s.Plain → post s
  | .takeAttr _, post => ∀ found : Option String, (∀ value ∈ found, OneLine value) → post found
  | .dropAttrsFrom _, post => post ()
  -- Nothing is known of a text: a rule that quotes one is not plain.
  | .takeText, post => ∀ text, post text
  | .dropChildrenNamed _, post => post ()
  | .ensureDrained, post => post ()
  | .missingChild, _ => True
  | .childrenAtMost _ rule, post =>
    ∃ each, Plain rule each ∧ ∀ values, (∀ value ∈ values, each value) → post values
  | .choice _ rules, post => ∀ i, Plain (rules i) post
  | .attempt rule, post =>
    Plain rule (fun value => post (.ok value)) ∧ ∀ e, e.Plain → post (.error e)

/-- A rule whose messages are on one line where the attributes that it reads are. -/
def PlainSpoken (rule : Rule α) : Prop :=
  rule.Plain fun _ => True

/-- The induction over rules. -/
theorem eval_plain (tracing : Tracing) {rule : Rule α} {post : α → Prop} (h : rule.Plain post)
    {s : Scope} (hs : s.Plain) : (rule.eval tracing s).Plain post := by
  induction rule generalizing s with
  | pure value => exact .of_ok hs h
  | bind rule next ih ihNext =>
    have hrule := ih h hs
    exact hrule.andThen fun value hvalue => ihNext value hvalue hrule.scope
  | fail message => exact .of_error hs (.other h)
  | element => exact .of_ok hs (h s.element hs.element)
  | scope => exact .of_ok hs (h s hs)
  | takeAttr key =>
    obtain ⟨hleft, hfound⟩ := hs.takeAttr key
    exact .of_ok hleft (h _ hfound)
  | dropAttrsFrom start => exact .of_ok (hs.dropAttrsFrom start) h
  | takeText => exact .of_ok hs.takeText (h _)
  | dropChildrenNamed name => exact .of_ok (hs.dropChildrenNamed name) h
  | ensureDrained => exact ⟨hs, fun _ _ => h, fun e he => hs.ensureDrained he⟩
  | missingChild => exact .of_error hs hs.missingChild
  | childrenAtMost quota rule ih =>
    obtain ⟨each, hrule, hvalues⟩ := h
    obtain ⟨hfound, hkept⟩ := Scope.scan_plain tracing s.element
      (fun x hx => (ih hrule (Scope.plain_ofElement hx)).drained) quota hs.children
    exact .of_ok ⟨hs.element, hs.attrs, hkept⟩ (hvalues _ hfound)
  | choice count rules ih =>
    refine Scope.tryVariants_plain hs tracing (fun _ he => absurd he List.not_mem_nil) ?_
    intro r hr
    obtain ⟨i, rfl⟩ := List.mem_ofFn.mp hr
    exact ih i (h i) hs
  | attempt rule ih =>
    obtain ⟨hok, herror⟩ := h
    have hrule := ih hok hs
    refine .of_ok hrule.scope ?_
    cases ho : (rule.eval tracing s).outcome with
    | ok value => exact hrule.value value ho
    | error e => exact herror e (hrule.error e ho)

/-- What a plain rule says of a plain element breaks no line. -/
theorem run_plain (tracing : Tracing) {rule : Rule α} {post : α → Prop} (h : rule.Plain post)
    {e : Element} (he : e.Plain) : (rule.run tracing e).Plain post :=
  (eval_plain tracing h (Scope.plain_ofElement he)).drained

theorem Plain.mono {rule : Rule α} {post post' : α → Prop} (h : rule.Plain post)
    (hpost : ∀ value, post value → post' value) : rule.Plain post' := by
  induction rule with
  | pure value => exact hpost value h
  | bind rule next ih ihNext => exact ih h fun value hvalue => ihNext value hvalue hpost
  | fail message => exact h
  | element => exact fun e he => hpost e (h e he)
  | scope => exact fun s hs => hpost s (h s hs)
  | takeAttr key => exact fun found hfound => hpost found (h found hfound)
  | dropAttrsFrom | dropChildrenNamed | ensureDrained => exact hpost () h
  | takeText => exact fun text => hpost text (h text)
  | missingChild => trivial
  | childrenAtMost quota rule ih =>
    obtain ⟨each, hrule, hvalues⟩ := h
    exact ⟨each, hrule, fun values heach => hpost values (hvalues values heach)⟩
  | choice count rules ih => exact fun i => ih i (h i) hpost
  | attempt rule ih =>
    obtain ⟨hok, herror⟩ := h
    exact ⟨ih hok fun value => hpost (.ok value), fun e he => hpost _ (herror e he)⟩

/-! ## Plain combinators -/

section Combinators

variable {post : α → Prop} {each : β → Prop} {rule : Rule β} {key : String}

/-- A rule that is plain whatever its value is, and then one that is plain for any value. -/
theorem PlainSpoken.then {next : β → Rule α} (h : rule.PlainSpoken)
    (hnext : ∀ value, (next value).Plain post) : (rule >>= next).Plain post := by
  show rule.Plain fun value => (next value).Plain post
  exact Plain.mono h fun value _ => hnext value

theorem plain_matchName {name : String} (hname : OneLine name) {post : Unit → Prop}
    (h : post ()) : (matchName name).Plain post := by
  intro e _
  show Plain (if e.name = name then Rule.pure () else fail _) post
  split
  · exact h
  · show OneLine _
    exact oneLine_append.mpr ⟨by decide, hname⟩

/-- A value that is read has no line feed in it. -/
theorem plain_attr (hkey : OneLine key) {post : String → Prop}
    (h : ∀ value, OneLine value → post value) : (attr key).Plain post := by
  intro found hfound
  cases found with
  | some value => exact h value (hfound value rfl)
  | none =>
    show OneLine _
    exact oneLine_append.mpr ⟨oneLine_append.mpr ⟨by decide, hkey⟩, by decide⟩

/-- The message quotes the value. -/
theorem plain_attrEq {expected : String} (hkey : OneLine key) (hexpected : OneLine expected)
    {post : Unit → Prop} (h : post ()) : (attrEq key expected).Plain post := by
  refine plain_attr hkey fun value hvalue => ?_
  show Plain (if value = expected then Rule.pure () else fail _) post
  split
  · exact h
  · show OneLine _
    simp only [oneLine_append]
    exact ⟨⟨⟨⟨⟨by decide, hkey⟩, by decide⟩, hvalue⟩, by decide⟩, hexpected⟩

section Reading

variable {ε : Type} [ToString ε]

theorem plain_readValue {read : String → Except ε α} {value : String}
    (herrors : ∀ e : ε, OneLine (toString e)) (hkey : OneLine key) (hvalue : OneLine value)
    (h : ∀ a, post a) : (readValue read key value).Plain post := by
  unfold readValue
  split
  · exact h _
  · rename_i e _
    show OneLine (invalidValue key value e)
    unfold invalidValue
    simp only [oneLine_append]
    exact ⟨⟨⟨⟨⟨by decide, hkey⟩, by decide⟩, hvalue⟩, by decide⟩, herrors e⟩

theorem plain_attrRead {read : String → Except ε α} (herrors : ∀ e : ε, OneLine (toString e))
    (hkey : OneLine key) (h : ∀ a, post a) : (attrRead read key).Plain post :=
  plain_attr hkey fun _ hvalue => plain_readValue herrors hkey hvalue h

theorem plain_attrReadOpt {read : String → Except ε α}
    (herrors : ∀ e : ε, OneLine (toString e)) (hkey : OneLine key) {post : Option α → Prop}
    (h : ∀ found, post found) : (attrReadOpt read key).Plain post := by
  intro found hfound
  cases found with
  | none => exact h none
  | some value => exact plain_readValue herrors hkey (hfound value rfl) fun a => h (some a)

end Reading

theorem plain_dropAttr (key : String) {post : Unit → Prop} (h : post ()) :
    (dropAttr key).Plain post :=
  fun _ _ => h

/-- A text that is read may have line feeds in it. -/
theorem plain_text {post : String → Prop} (h : ∀ text, post text) : text.Plain post :=
  fun _ => h _

theorem plain_blankText {post : Unit → Prop} (h : post ()) : blankText.Plain post := by
  refine plain_text fun text => ?_
  show Plain (if Text.isBlankText text then Rule.pure () else fail _) post
  split
  · exact h
  · show OneLine _
    decide

theorem plain_childOpt (hrule : rule.Plain each) {post : Option β → Prop}
    (h : ∀ found : Option β, (∀ value ∈ found, each value) → post found) :
    (childOpt rule).Plain post := by
  refine ⟨each, hrule, fun values hvalues => h values.head? ?_⟩
  exact fun value hvalue => hvalues value (List.mem_of_mem_head? hvalue)

theorem plain_child (hrule : rule.Plain each) {post : β → Prop}
    (h : ∀ value, each value → post value) : (child rule).Plain post := by
  refine plain_childOpt hrule fun found hfound => ?_
  cases found with
  | some value => exact h value (hfound value rfl)
  | none => trivial

theorem plain_childrenOpt (hrule : rule.Plain each) {post : List β → Prop}
    (h : ∀ values, (∀ value ∈ values, each value) → post values) :
    (childrenOpt rule).Plain post :=
  ⟨each, hrule, h⟩

theorem plain_children (hrule : rule.Plain each) {post : List β → Prop}
    (h : ∀ values, (∀ value ∈ values, each value) → post values) :
    (children rule).Plain post := by
  refine plain_childrenOpt hrule fun values hvalues => ?_
  show Plain (if values.isEmpty then missingChild else Rule.pure values) post
  split
  · trivial
  · exact h values hvalues

theorem plain_oneOf {rules : List (Rule α)} (h : ∀ rule ∈ rules, rule.Plain post) :
    (oneOf rules).Plain post :=
  fun i => h _ (List.get_mem rules i)

end Combinators

/-! ### Rules that are run for what they take -/

section PlainSpoken

variable {rule : Rule α} {key name : String}

theorem plainSpoken_element : element.PlainSpoken :=
  fun _ _ => trivial

theorem plainSpoken_matchName (hname : OneLine name) : (matchName name).PlainSpoken :=
  plain_matchName hname trivial

theorem plainSpoken_takeAttr (key : String) : (takeAttr key).PlainSpoken :=
  fun _ _ => trivial

theorem plainSpoken_attr (hkey : OneLine key) : (attr key).PlainSpoken :=
  plain_attr hkey fun _ _ => trivial

theorem plainSpoken_dropAttr (key : String) : (dropAttr key).PlainSpoken :=
  plain_dropAttr key trivial

theorem plainSpoken_dropAttrsFrom (start : String) : (dropAttrsFrom start).PlainSpoken :=
  trivial

theorem plainSpoken_dropChildrenNamed (name : String) : (dropChildrenNamed name).PlainSpoken :=
  trivial

theorem plainSpoken_childOpt (h : rule.PlainSpoken) : (childOpt rule).PlainSpoken :=
  plain_childOpt h fun _ _ => trivial

theorem plainSpoken_child (h : rule.PlainSpoken) : (child rule).PlainSpoken :=
  plain_child h fun _ _ => trivial

theorem plainSpoken_childrenOpt (h : rule.PlainSpoken) : (childrenOpt rule).PlainSpoken :=
  plain_childrenOpt h fun _ _ => trivial

theorem plainSpoken_children (h : rule.PlainSpoken) : (children rule).PlainSpoken :=
  plain_children h fun _ _ => trivial

end PlainSpoken

end Rule

end ElementGrammar
