import ElementGrammar.Tree.Element

/-!
# A tree in preorder

`Element.preorder` lists the elements of a tree, each before its children and
with its depth.  The depths bracket the list: the elements inside one of depth `d`
end where the next element is not deeper than `d`.  `Element.preorder_injective` is
that the list determines the tree.
-/

namespace ElementGrammar

/-- An element without its children, at a depth. -/
structure Node where
  depth : Nat
  name : String
  attrs : Attributes
  text : Option String
  deriving DecidableEq, Repr

namespace Element

mutual

/-- The elements of a tree at a depth, each before its children. -/
def preorder (depth : Nat) : Element → List Node
  | ⟨name, attrs, children, text⟩ =>
    ⟨depth, name, attrs, text⟩ :: preorderAll (depth + 1) children

/-- The elements of trees at a depth, tree after tree. -/
def preorderAll (depth : Nat) : List Element → List Node
  | [] => []
  | e :: es => preorder depth e ++ preorderAll depth es

end

@[simp]
theorem preorderAll_append (depth : Nat) (as bs : List Element) :
    preorderAll depth (as ++ bs) = preorderAll depth as ++ preorderAll depth bs := by
  induction as with
  | nil => rfl
  | cons a as ih =>
    rw [List.cons_append, preorderAll, preorderAll, ih, List.append_assoc]

@[simp]
theorem preorderAll_singleton (depth : Nat) (e : Element) :
    preorderAll depth [e] = preorder depth e := by
  rw [preorderAll, preorderAll, List.append_nil]

theorem preorder_eq_cons (depth : Nat) (e : Element) :
    preorder depth e = ⟨depth, e.name, e.attrs, e.text⟩ :: preorderAll (depth + 1) e.children := by
  cases e
  rw [preorder]

/-- The first node of some trees is at their depth. -/
theorem head?_preorderAll_append {depth : Nat} {es : List Element} {rest : List Node}
    (hrest : ∀ n ∈ rest.head?, n.depth < depth + 1) :
    ∀ n ∈ (preorderAll depth es ++ rest).head?, n.depth < depth + 1 := by
  cases es with
  | nil => exact hrest
  | cons e es =>
    intro n hn
    rw [preorderAll, preorder_eq_cons, List.cons_append, List.cons_append, List.head?_cons,
      Option.mem_some_iff] at hn
    rw [← hn]
    exact Nat.lt_succ_self depth

/-- Trees at a depth end where a list goes on above that depth.  The induction is on
the first trees: the children of the first one end where its siblings begin. -/
theorem preorderAll_append_inj {depth : Nat} {rest rest' : List Node}
    (hrest : ∀ n ∈ rest.head?, n.depth < depth) (hrest' : ∀ n ∈ rest'.head?, n.depth < depth) :
    ∀ {es es' : List Element},
      preorderAll depth es ++ rest = preorderAll depth es' ++ rest' → es = es' ∧ rest = rest'
  | [], [], h => ⟨rfl, h⟩
  | [], e' :: _, h => by
    rw [preorderAll, preorderAll, preorder_eq_cons] at h
    have hlt := hrest ⟨depth, e'.name, e'.attrs, e'.text⟩ (by simp [show rest = _ from h])
    exact absurd hlt (Nat.lt_irrefl depth)
  | e :: _, [], h => by
    rw [preorderAll, preorderAll, preorder_eq_cons] at h
    have hlt := hrest' ⟨depth, e.name, e.attrs, e.text⟩ (by simp [show rest' = _ from h.symm])
    exact absurd hlt (Nat.lt_irrefl depth)
  | ⟨name, attrs, children, text⟩ :: es, ⟨name', attrs', children', text'⟩ :: es', h => by
    have hle : ∀ n ∈ rest.head?, n.depth < depth + 1 := fun n hn => by
      have := hrest n hn
      omega
    have hle' : ∀ n ∈ rest'.head?, n.depth < depth + 1 := fun n hn => by
      have := hrest' n hn
      omega
    simp only [preorderAll, preorder, List.cons_append, List.append_assoc, List.cons.injEq,
      Node.mk.injEq, true_and] at h
    obtain ⟨⟨hname, hattrs, htext⟩, h⟩ := h
    have ⟨hchildren, h⟩ := preorderAll_append_inj (head?_preorderAll_append hle)
      (head?_preorderAll_append hle') h
    have ⟨hes, hrests⟩ := preorderAll_append_inj hrest hrest' h
    exact ⟨by rw [hname, hattrs, htext, hchildren, hes], hrests⟩

/-- A tree is determined by its elements in preorder with their depths. -/
theorem preorder_injective {depth : Nat} {a b : Element}
    (h : a.preorder depth = b.preorder depth) : a = b := by
  have h' : preorderAll depth [a] ++ [] = preorderAll depth [b] ++ [] := by simpa using h
  have hnone : ∀ n ∈ ([] : List Node).head?, n.depth < depth := by simp
  have := (preorderAll_append_inj hnone hnone h').1
  injection this

end Element

end ElementGrammar
