import RunTrace.Markup

/-!
# Labelled markup

Markup does not say what its elements stand for. Where the elements of some kind stand for the
items of a list, from top to bottom, each of them is labelled with its item: an element is entered
before what is inside of it, and that before what follows.
-/

namespace RunTrace

/-- An element of some markup with what is inside of it, and with its label if it has one. -/
structure Site (α β : Type) where
  element : Element α
  contents : Markup α
  label? : Option β
  deriving DecidableEq

namespace Markup

variable {α β : Type}

/-- The number of elements of a kind. -/
def count (kind : Element α → Bool) : Markup α → Nat
  | nil => 0
  | text _ rest => rest.count kind
  | element e contents rest => (kind e).toNat + contents.count kind + rest.count kind

/-- For every element of the markup, in document order, the sites of the element and of those around
it from the inside out; `outer` are those around the markup. The elements of a kind take one label
after the other. -/
def sites (kind : Element α → Bool) (outer : List (Site α β)) (labels : List β) :
    Markup α → List (List (Site α β))
  | nil => []
  | text _ rest => rest.sites kind outer labels
  | element e contents rest =>
    let site : Site α β := ⟨e, contents, if kind e then labels.head? else none⟩
    let below := labels.drop (kind e).toNat
    (site :: outer) :: (contents.sites kind (site :: outer) below
      ++ rest.sites kind outer (below.drop (contents.count kind)))

/-- Labels aside, these are the elements that a click is offered to. -/
theorem map_element_sites (kind : Element α → Bool) (outer : List (Site α β)) (labels : List β)
    (m : Markup α) :
    (m.sites kind outer labels).map (·.map (·.element)) = m.chains (outer.map (·.element)) := by
  induction m generalizing outer labels with
  | nil => rfl
  | text content rest ih => exact ih outer labels
  | element e contents rest ihc ihr => simp [sites, chains, ihc, ihr]

theorem nil_append (m : Markup α) : nil ++ m = m := rfl

theorem element_append (e : Element α) (contents rest m : Markup α) :
    element e contents rest ++ m = element e contents (rest ++ m) := rfl

@[simp]
theorem count_append (kind : Element α → Bool) (m more : Markup α) :
    (m ++ more).count kind = m.count kind + more.count kind := by
  induction m with
  | nil => rw [nil_append, count, Nat.zero_add]
  | text content rest ih => exact ih
  | element e contents rest _ ih => simp only [element_append, count, ih, Nat.add_assoc]

/-- What follows takes the labels that are left. -/
theorem sites_append (kind : Element α → Bool) (outer : List (Site α β)) (labels : List β)
    (m more : Markup α) :
    (m ++ more).sites kind outer labels =
      m.sites kind outer labels ++ more.sites kind outer (labels.drop (m.count kind)) := by
  induction m generalizing labels with
  | nil => rfl
  | text content rest ih => exact ih labels
  | element e contents rest _ ih =>
    simp only [element_append, sites, count, ih, List.cons_append, List.append_assoc,
      List.drop_drop, Nat.add_assoc]

end Markup

end RunTrace
