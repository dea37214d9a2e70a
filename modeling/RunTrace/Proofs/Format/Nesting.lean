import RunTrace.Proofs.Format.Given
import RunTrace.Proofs.Format.Records

/-!
# What is read, and how deeply it is nested

Every value of a record that is read has been read from somewhere in the text, or it is what its
field holds when it is left out. So costs are finite, and as each level of a tree takes two
levels of the text and a subcall another one for its tokens, the trees are not too high to be
read again.

## Main results

* `readRecord_eq_ok`: the values of a record that is read have been obtained;
* `bounded_of_readRecord`: how high a subcall that is read can be;
* `writable_of_read`: a trajectory that is read can be read from its own text.
-/

namespace RunTrace.Format

/-! ## Where values come from -/

section Obtained

variable (read : (kind : Kind) → Json → Except ReadError kind.Value)

/-- A value of a field is the one that it holds when it is left out, or has been read. -/
def Kind.Obtained (kind : Kind) (value : kind.Value) : Prop :=
  kind.default? = some value ∨ ∃ json, read kind json = .ok value

/-- All values have been obtained. -/
def Values.Obtained : (fields : List Field) → Values fields → Prop
  | [], () => True
  | field :: fields, (value, values) => field.kind.Obtained read value ∧ Obtained fields values

variable {read}

/-- What is given for a field is read, and if nothing is, the field is left out. -/
theorem Kind.Given.obtained {kind : Kind} {jsons : List Json} {value : kind.Value}
    (h : kind.Given read jsons value) : kind.Obtained read value := by
  match jsons with
  | [] => exact .inl h
  | [json] => exact .inr ⟨json, h⟩
  | _ :: _ :: _ => exact h.elim

theorem Values.Given.obtained {given : Field → List Json} {fields : List Field}
    {values : Values fields} (h : Values.Given read given fields values) :
    Values.Obtained read fields values := by
  induction fields with
  | nil => trivial
  | cons field fields ih => exact ⟨h.1.obtained, ih h.2⟩

theorem Values.obtained_readItems {record : Record} {position : Nat} {fields : List Field}
    {items : List Json} {result : Values fields × List Json}
    (h : readItems read record position fields items = .ok result) :
    Values.Obtained read fields result.1 := by
  induction fields generalizing position items with
  | nil => trivial
  | cons field fields ih =>
    cases items with
    | cons item items =>
      rw [readItems] at h
      obtain ⟨value, hvalue, h⟩ := bind_eq_ok.1 h
      obtain ⟨more, hmore, h⟩ := bind_eq_ok.1 h
      obtain rfl : ((value, more.1), more.2) = result := Except.ok.inj h
      exact ⟨.inr ⟨item, hvalue⟩, ih hmore⟩
    | nil =>
      rw [readItems] at h
      split at h
      · next value hdefault =>
        obtain ⟨more, hmore, h⟩ := bind_eq_ok.1 h
        obtain rfl : ((value, more.1), more.2) = result := Except.ok.inj h
        exact ⟨.inl hdefault, ih hmore⟩
      · exact nomatch h

end Obtained

/-! ## Records -/

theorem wrongType_ne_ok {α : Type} {expected : Expected} {json : Json} {value : α} :
    wrongType expected json ≠ .ok value := fun h => by
  obtain ⟨what, -, h⟩ := bind_eq_ok.1 h
  exact nomatch h

/-- The values of a record that is read have been obtained, and a level has been opened for
them. -/
theorem readRecord_eq_ok {levels : Nat} {record : Record} {json : Json} {value : record.Value}
    (h : readRecord levels record json = .ok value) :
    ∃ below, levels = below + 1 ∧ ∃ values, Values.Obtained (readField below) record.fields values ∧
      record.make values = value := by
  cases levels with
  -- Where no level may be opened, no array and no object is read, and records are nothing else.
  | zero =>
    cases json with
    | array items => exact nomatch h
    | object members => exact nomatch h
    | _ => exact absurd h wrongType_ne_ok
  | succ below =>
    refine ⟨below, rfl, ?_⟩
    cases json with
    | object members =>
      obtain ⟨-, values, hvalues, hmake⟩ := readRecord_object_iff.1 h
      exact ⟨values, hvalues.obtained, hmake⟩
    | array items =>
      rw [readRecord_succ] at h
      obtain ⟨values, hvalues, h⟩ := bind_eq_ok.1 h
      obtain ⟨-, -, h⟩ := bind_eq_ok.1 h
      exact ⟨values.1, Values.obtained_readItems hvalues, Except.ok.inj h⟩
    | _ =>
      rw [readRecord_succ] at h
      exact absurd h wrongType_ne_ok

/-- A cost that is read is finite. -/
theorem isFinite_of_obtained {levels : Nat} {x : Float}
    (h : Kind.Obtained (readField levels) .real x) : x.isFinite = true := by
  obtain hdefault | ⟨json, h⟩ := h
  · exact nomatch hdefault
  · cases json with
    | number literal =>
      obtain ⟨number, hnumber, h⟩ := bind_eq_ok.1
        (show (liftJson literal.read >>= fun _ => pure literal.toFloat) = .ok x from h)
      obtain rfl : literal.toFloat = x := Except.ok.inj h
      -- The literal has been read, and what is read of it is not too large for a double.
      cases hread : literal.read with
      | error error =>
        rw [hread] at hnumber
        exact nomatch hnumber
      | ok number => exact Json.NumberLiteral.isFinite_of_read hread
    | _ => exact absurd h wrongType_ne_ok

/-- Token counts take a level of their own. -/
theorem pos_of_obtained_tokens {levels : Nat} {tokens : TokenCounts}
    (h : Kind.Obtained (readField levels) (.record .tokenCounts) tokens) : 0 < levels := by
  obtain hdefault | ⟨json, h⟩ := h
  · exact nomatch hdefault
  · obtain ⟨below, rfl, -⟩ := readRecord_eq_ok h
    exact Nat.succ_pos below

/-- A record with a field that can be blank has token counts, so a level may be opened in it. -/
theorem pos_of_readRecord {levels : Nat} {record : Record} {json : Json} {value : record.Value}
    (h : readRecord (levels + 1) record json = .ok value) {field : Field}
    (hfield : field ∈ record.fields) (hblank : field.kind.blank?.isSome = true) : 0 < levels := by
  obtain ⟨below, heq, values, hvalues, -⟩ := readRecord_eq_ok h
  obtain rfl : levels = below := Nat.succ.inj heq
  cases record with
  | trajectory =>
    obtain ⟨-, -, -, htokens, -⟩ := hvalues
    exact pos_of_obtained_tokens htokens
  | subcall =>
    obtain ⟨-, -, -, -, -, -, -, htokens, -⟩ := hvalues
    exact pos_of_obtained_tokens htokens
  -- The other records have no field that can be blank.
  | toolCall =>
    have hnone : ∀ field ∈ Record.toolCall.fields, field.kind.blank?.isSome = false := by decide
    exact absurd ((hnone field hfield).symm.trans hblank) Bool.false_ne_true
  | tokenCounts =>
    have hnone : ∀ field ∈ Record.tokenCounts.fields, field.kind.blank?.isSome = false := by decide
    exact absurd ((hnone field hfield).symm.trans hblank) Bool.false_ne_true

/-- Each record of a list that is read has been read, one level further in than the list. -/
theorem exists_of_obtained_list {levels : Nat} {record : Record} {values : List record.Value}
    (h : Kind.Obtained (readField levels) (.list record) values) :
    ∀ value ∈ values, ∃ below json, levels = below + 1 ∧
      readRecord below record json = .ok value := by
  obtain hdefault | ⟨json, h⟩ := h
  · obtain rfl : [] = values := Option.some.inj hdefault
    exact fun value hmem => absurd hmem List.not_mem_nil
  · cases json with
    | array items =>
      cases levels with
      | zero => exact nomatch h
      | succ below =>
        rw [readField_list] at h
        intro value hmem
        obtain ⟨item, hitem⟩ := exists_of_mapM_eq_ok h value hmem
        exact ⟨below, item, rfl, hitem⟩
    | _ => exact absurd h wrongType_ne_ok

/-! ## Trees -/

theorem height_ofTrees_le {α : Type} {trees : List (Tree α)} {bound : Nat}
    (h : ∀ tree ∈ trees, tree.children.height + 1 ≤ bound) :
    (Forest.ofTrees trees).height ≤ bound := by
  induction trees with
  | nil => exact Nat.zero_le bound
  | cons tree trees ih =>
    obtain ⟨htree, htrees⟩ := List.forall_mem_cons.1 h
    exact Nat.max_le.2 ⟨htree, ih htrees⟩

theorem forall_mem_toList_ofTrees {α : Type} {p : α → Prop} {trees : List (Tree α)}
    (h : ∀ tree ∈ trees, p tree.value ∧ ∀ a ∈ tree.children.toList, p a) :
    ∀ a ∈ (Forest.ofTrees trees).toList, p a := by
  induction trees with
  | nil => exact fun a hmem => absurd hmem List.not_mem_nil
  | cons tree trees ih =>
    obtain ⟨⟨hvalue, hchildren⟩, htrees⟩ := List.forall_mem_cons.1 h
    exact List.forall_mem_cons.2 ⟨hvalue, List.forall_mem_append.2 ⟨hchildren, ih htrees⟩⟩

/-- A subcall that can be read where the given number of levels may be opened: each of its own
levels takes two of them, and all costs are finite. -/
structure Bounded (levels : Nat) (subcall : Subcall) : Prop where
  height : 2 * (subcall.children.height + 1) ≤ levels
  cost : subcall.value.cost.isFinite = true
  costs : ∀ call ∈ subcall.children.toList, call.cost.isFinite = true

/-- A list of subcalls that has been read is bounded if each of them is. -/
theorem bounds_of_obtained_list {levels : Nat} {trees : List Subcall}
    (h : Kind.Obtained (readField levels) (.list .subcall) trees)
    (hbounded : ∀ below < levels, ∀ json subcall,
      readRecord below .subcall json = .ok subcall → Bounded below subcall) :
    2 * (Forest.ofTrees trees).height ≤ levels - 1 ∧
      ∀ call ∈ (Forest.ofTrees trees).toList, call.cost.isFinite = true := by
  have htrees : ∀ tree ∈ trees, Bounded (levels - 1) tree := by
    intro tree hmem
    obtain ⟨below, json, rfl, hread⟩ := exists_of_obtained_list h tree hmem
    exact hbounded below (Nat.lt_succ_self below) json tree hread
  -- The list takes a level itself, so the trees have one less.
  have hheight : (Forest.ofTrees trees).height ≤ (levels - 1) / 2 :=
    height_ofTrees_le fun tree hmem => by
      have := (htrees tree hmem).height
      omega
  refine ⟨by omega, forall_mem_toList_ofTrees fun tree hmem => ?_⟩
  exact ⟨(htrees tree hmem).cost, (htrees tree hmem).costs⟩

/-- Every subcall that is read is bounded by the levels that may be opened. -/
theorem bounded_of_readRecord {levels : Nat} {json : Json} {subcall : Subcall}
    (h : readRecord levels .subcall json = .ok subcall) : Bounded levels subcall := by
  -- The children are read two levels further in, so the induction is on all smaller numbers.
  induction levels using Nat.strongRecOn generalizing json subcall with
  | _ levels ih =>
    obtain ⟨below, rfl, values, hvalues, rfl⟩ := readRecord_eq_ok h
    obtain ⟨-, -, -, -, -, -, -, htokens, hcost, -, hchildren, -, -⟩ := hvalues
    -- Even without children, the tokens are read one level further in.
    have hpos := pos_of_obtained_tokens htokens
    obtain ⟨hheight, hcosts⟩ := bounds_of_obtained_list hchildren
      fun deeper hlt json subcall hread => ih deeper (Nat.lt_succ_of_lt hlt) hread
    refine ⟨?_, isFinite_of_obtained hcost, hcosts⟩
    change 2 * ((Forest.ofTrees _).height + 1) ≤ below + 1
    omega

/-- A trajectory that is read is read from its own text as well. -/
theorem writable_of_read {text : String} {trajectory : Trajectory}
    (h : read text = .ok trajectory) : Writable trajectory := by
  obtain ⟨result, hresult, h⟩ := bind_eq_ok.1 h
  split at h
  · exact nomatch h
  · obtain rfl : result = trajectory := Except.ok.inj h
    obtain ⟨below, hbelow, values, hvalues, rfl⟩ := readRecord_eq_ok hresult
    obtain rfl : 126 = below := Nat.succ.inj hbelow
    obtain ⟨-, -, -, -, hcost, -, hsubcalls, -⟩ := hvalues
    obtain ⟨hheight, hcosts⟩ := bounds_of_obtained_list hsubcalls
      fun below _ json subcall hread => bounded_of_readRecord hread
    refine ⟨isFinite_of_obtained hcost, hcosts, ?_⟩
    change (Forest.ofTrees _).height ≤ 62
    omega

end RunTrace.Format
