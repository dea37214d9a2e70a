import RunTrace.Json.Skip
import RunTrace.Proofs.Results

/-!
# Values in which nothing breaks off

The tree of a text that breaks off has a torn leaf at that place. Here the trees without one are
described. They are those that can be skipped, as skipping looks for nothing else.

## Main results

* `skip_eq_ok_iff`: exactly the values in which nothing breaks off can be skipped.
-/

namespace RunTrace.Json

mutual

/-- Nothing breaks off in a value. Numbers of any size and unpaired surrogates are no breaks. -/
def Complete : Json → Prop
  | null | boolean _ | number _ => True
  | string literal => literal.tear = none
  | array items => CompleteItems items
  | object members => CompleteMembers members
  | torn _ => False

/-- Nothing breaks off in items. -/
def CompleteItems : List Json → Prop
  | [] => True
  | item :: items => Complete item ∧ CompleteItems items

/-- Nothing breaks off in a member. -/
def CompleteMember : Member → Prop
  | .member key value => key.tear = none ∧ Complete value
  | .torn _ => False

/-- Nothing breaks off in members. -/
def CompleteMembers : List Member → Prop
  | [] => True
  | member :: members => CompleteMember member ∧ CompleteMembers members

end

theorem completeItems_iff {items : List Json} :
    CompleteItems items ↔ ∀ item ∈ items, Complete item := by
  induction items with
  | nil => exact iff_of_true trivial (List.forall_mem_nil _)
  | cons item items ih => rw [CompleteItems, ih, List.forall_mem_cons]

theorem completeMembers_iff {members : List Member} :
    CompleteMembers members ↔ ∀ member ∈ members, CompleteMember member := by
  induction members with
  | nil => exact iff_of_true trivial (List.forall_mem_nil _)
  | cons member members ih => rw [CompleteMembers, ih, List.forall_mem_cons]

theorem StringLiteral.skip_eq_ok_iff {literal : StringLiteral} :
    literal.skip = .ok () ↔ literal.tear = none := by
  rw [skip]
  cases literal.tear <;> simp

/-- One thing is skipped behind another if both are. -/
theorem bind_skip_eq_ok_iff {first next : Except SyntaxError Unit} :
    (first >>= fun _ => next) = .ok () ↔ first = .ok () ∧ next = .ok () :=
  bind_eq_ok.trans ⟨fun ⟨(), h⟩ => h, fun h => ⟨(), h⟩⟩

mutual

/-- Exactly the values in which nothing breaks off can be skipped. -/
theorem skip_eq_ok_iff (value : Json) : value.skip = .ok () ↔ Complete value := by
  match value with
  | null | boolean _ | number _ => exact iff_of_true rfl trivial
  | string literal => exact StringLiteral.skip_eq_ok_iff
  | array items => exact skipItems_eq_ok_iff items
  | object members => exact skipMembers_eq_ok_iff members
  | torn _ => exact iff_of_false (fun h => nomatch h) id

theorem skipItems_eq_ok_iff (items : List Json) :
    skipItems items = .ok () ↔ CompleteItems items := by
  match items with
  | [] => exact iff_of_true rfl trivial
  | item :: items =>
    rw [skipItems, CompleteItems, ← skip_eq_ok_iff item, ← skipItems_eq_ok_iff items]
    exact bind_skip_eq_ok_iff

theorem skipMember_eq_ok_iff (member : Member) :
    skipMember member = .ok () ↔ CompleteMember member := by
  match member with
  | .member key value =>
    rw [skipMember, CompleteMember, ← StringLiteral.skip_eq_ok_iff, ← skip_eq_ok_iff value]
    exact bind_skip_eq_ok_iff
  | .torn _ => exact iff_of_false (fun h => nomatch h) id

theorem skipMembers_eq_ok_iff (members : List Member) :
    skipMembers members = .ok () ↔ CompleteMembers members := by
  match members with
  | [] => exact iff_of_true rfl trivial
  | member :: members =>
    rw [skipMembers, CompleteMembers, ← skipMember_eq_ok_iff member,
      ← skipMembers_eq_ok_iff members]
    exact bind_skip_eq_ok_iff

end

end RunTrace.Json
