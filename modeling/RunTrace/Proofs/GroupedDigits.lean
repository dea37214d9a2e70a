import RunTrace.Display
import RunTrace.Proofs.Decimal.Digits

/-!
# Numbers grouped by thousands

Where the commas of a number stand is decided by how many digits are behind them. Somebody who
reads the text from the front finds a group of one to three digits and behind it groups of three,
and without the commas the numeral of the number. No other text is like this for the same number,
and none is for two numbers.

## Main results

* `Display.groupDigits_flatten`: digits are written as the groups by thousands that they are made
  of, with commas in between;
* `Display.eq_thousands_iff`: a text is displayed for a number exactly if it is the number grouped
  by thousands;
* `Display.thousands_grouped`: so the text tells the number.
-/

namespace RunTrace.Display

open Decimal (IsDigits IsNumeral digits)

/-! ## Groups of digits -/

/-- Groups of digits are by thousands if the first one has at most three and every other one has
three. -/
structure InThousands (first : List Char) (more : List (List Char)) : Prop where
  isDigits : ∀ group ∈ first :: more, IsDigits group
  length_le : first.length ≤ 3
  length_more : ∀ group ∈ more, group.length = 3

/-- Up to three digits are one group. -/
theorem groupDigits_of_length_le {ds : List Char} (h : ds.length ≤ 3) : groupDigits ds = ds := by
  induction ds with
  | nil => rfl
  | cons d ds ih =>
    rw [List.length_cons] at h
    have hinside : ¬ (ds.length % 3 = 0 ∧ ds ≠ []) := by
      rintro ⟨hmod, hne⟩
      have := List.length_pos_iff.2 hne
      omega
    rw [groupDigits, if_neg hinside, ih (by omega)]

/-- In front of digits that fill groups, up to three others are a group of their own. -/
theorem groupDigits_append {first rest : List Char} (hfirst : first ≠ [])
    (hlength : first.length ≤ 3) (hne : rest ≠ []) (hrest : rest.length % 3 = 0) :
    groupDigits (first ++ rest) = first ++ ',' :: groupDigits rest := by
  induction first with
  | nil => exact absurd rfl hfirst
  | cons d more ih =>
    rw [List.cons_append, groupDigits]
    cases more with
    | nil => rw [List.nil_append, if_pos ⟨hrest, hne⟩, List.singleton_append]
    | cons e more =>
      -- One or two digits of the group are left, so no comma is due yet.
      simp only [List.length_cons] at hlength ih
      have hinside : ¬ ((e :: more ++ rest).length % 3 = 0 ∧ e :: more ++ rest ≠ []) := by
        rw [List.length_append, List.length_cons]
        omega
      rw [if_neg hinside, ih (List.cons_ne_nil e more) (by omega)]
      rfl

theorem length_flatten_mod {groups : List (List Char)}
    (h : ∀ group ∈ groups, group.length = 3) : groups.flatten.length % 3 = 0 := by
  induction groups with
  | nil => rfl
  | cons group groups ih =>
    obtain ⟨hgroup, hgroups⟩ := List.forall_mem_cons.1 h
    have := ih hgroups
    rw [List.flatten_cons, List.length_append, hgroup]
    omega

/-- Digits that are made of groups by thousands are written as these groups. -/
theorem groupDigits_flatten {first : List Char} {more : List (List Char)}
    (h : InThousands first more) :
    groupDigits (first :: more).flatten = [','].intercalate (first :: more) := by
  induction more generalizing first with
  | nil =>
    rw [List.flatten_singleton, List.intercalate_singleton, groupDigits_of_length_le h.length_le]
  | cons group more ih =>
    obtain ⟨hfirst, hmore⟩ := List.forall_mem_cons.1 h.isDigits
    obtain ⟨hgroup, hlength⟩ := List.forall_mem_cons.1 h.length_more
    have hne : (group :: more).flatten ≠ [] := by
      rw [List.flatten_cons]
      exact List.append_ne_nil_of_left_ne_nil (hmore group List.mem_cons_self).ne_nil _
    rw [List.flatten_cons, groupDigits_append hfirst.ne_nil h.length_le hne
        (length_flatten_mod h.length_more), ih ⟨hmore, Nat.le_of_eq hgroup, hlength⟩,
      List.intercalate_cons_cons, List.append_assoc, List.singleton_append]

/-- Digits are made of groups by thousands. -/
theorem exists_inThousands {ds : List Char} (h : IsDigits ds) :
    ∃ first more, InThousands first more ∧ (first :: more).flatten = ds := by
  induction ds with
  | nil => exact absurd rfl h.ne_nil
  | cons d ds ih =>
    obtain ⟨hd, hds⟩ := List.forall_mem_cons.1 h.digit
    have hsingle : IsDigits [d] := ⟨List.cons_ne_nil d [], by simpa using hd⟩
    by_cases hempty : ds = []
    · exact ⟨[d], [], ⟨by simpa using hsingle, by simp, by simp⟩, by simp [hempty]⟩
    obtain ⟨first, more, hgroups, rfl⟩ := ih ⟨hempty, hds⟩
    -- One more digit in front joins the first group unless that is full.
    by_cases hfull : first.length = 3
    · refine ⟨[d], first :: more, ⟨?_, by simp, ?_⟩, rfl⟩
      · exact List.forall_mem_cons.2 ⟨hsingle, hgroups.isDigits⟩
      · exact List.forall_mem_cons.2 ⟨hfull, hgroups.length_more⟩
    · obtain ⟨hfirst, hmore⟩ := List.forall_mem_cons.1 hgroups.isDigits
      refine ⟨d :: first, more, ⟨?_, ?_, hgroups.length_more⟩, rfl⟩
      · exact List.forall_mem_cons.2 ⟨hsingle.append hfirst.digit, hmore⟩
      · have := hgroups.length_le
        rw [List.length_cons]
        omega

/-! ## Commas -/

theorem InThousands.not_mem_comma {first : List Char} {more : List (List Char)}
    (h : InThousands first more) : ∀ group ∈ first :: more, ',' ∉ group :=
  fun group hgroup hcomma => absurd ((h.isDigits group hgroup).digit ',' hcomma) (by decide)

/-- Without the commas between them, groups are what they are made of. -/
theorem filter_intercalate {groups : List (List Char)} (h : ∀ group ∈ groups, ',' ∉ group) :
    ([','].intercalate groups).filter (· ≠ ',') = groups.flatten := by
  induction groups with
  | nil => rfl
  | cons group groups ih =>
    obtain ⟨hgroup, hgroups⟩ := List.forall_mem_cons.1 h
    have hkept : group.filter (· ≠ ',') = group :=
      List.filter_eq_self.2 fun c hc => decide_eq_true fun heq => hgroup (heq ▸ hc)
    cases groups with
    | nil => rw [List.intercalate_singleton, hkept, List.flatten_singleton]
    | cons next groups =>
      have hcomma : [','].filter (· ≠ ',') = [] := rfl
      rw [List.intercalate_cons_cons, List.filter_append, List.filter_append, hkept, hcomma,
        ih hgroups, List.append_nil, ← List.flatten_cons]

theorem head?_groupDigits (ds : List Char) : (groupDigits ds).head? = ds.head? := by
  cases ds with
  | nil => rfl
  | cons d ds =>
    rw [groupDigits]
    split <;> rfl

theorem getLast?_groupDigits (ds : List Char) : (groupDigits ds).getLast? = ds.getLast? := by
  induction ds with
  | nil => rfl
  | cons d ds ih =>
    rw [groupDigits]
    split
    · next hcomma =>
      -- A comma is not the last, as it has digits behind it.
      rw [List.getLast?_cons, List.getLast?_cons, List.getLast?_cons, ih,
        List.getLast?_eq_some_getLast hcomma.2]
      rfl
    · rw [List.getLast?_cons, List.getLast?_cons, ih]

/-! ## Grouped numbers -/

/-- A text is a number grouped by thousands: without its commas it is the numeral of the number,
and the commas divide it into groups by thousands. -/
structure IsGrouped (n : Nat) (text : String) : Prop where
  numeral : IsNumeral n (text.toList.filter (· ≠ ','))
  groups : ∃ first more, text.toList.splitOn ',' = first :: more ∧ InThousands first more

/-- A text is displayed for a number exactly if it is the number grouped by thousands. -/
theorem eq_thousands_iff {text : String} {n : UInt64} :
    text = thousands n ↔ IsGrouped n.toNat text := by
  constructor
  · rintro rfl
    obtain ⟨first, more, hgroups, hflatten⟩ := exists_inThousands (Decimal.isDigits_digits n.toNat)
    have htext : (thousands n).toList = [','].intercalate (first :: more) := by
      rw [thousands, String.toList_ofList, ← hflatten, groupDigits_flatten hgroups]
    constructor
    · rw [htext, filter_intercalate hgroups.not_mem_comma, hflatten]
      exact Decimal.isNumeral_digits n.toNat
    · rw [htext, List.splitOn_intercalate ',' hgroups.not_mem_comma (List.cons_ne_nil first more)]
      exact ⟨first, more, rfl, hgroups⟩
  · rintro ⟨hnumeral, first, more, hsplit, hgroups⟩
    have htext : [','].intercalate (first :: more) = text.toList :=
      hsplit ▸ List.intercalate_splitOn ','
    have hflatten : (first :: more).flatten = digits n.toNat := by
      rw [← hnumeral.eq_digits, ← htext, filter_intercalate hgroups.not_mem_comma]
    rw [thousands, ← hflatten, groupDigits_flatten hgroups, htext, String.ofList_toList]

/-- A number is displayed as the one text that is the number grouped by thousands: without its
commas the numeral of the number, and divided by them into a group of one to three digits and
groups of three. It begins and ends with a digit, and it is displayed for no other number. -/
theorem thousands_grouped :
    (∀ (n : UInt64) (text : String), text = thousands n ↔ IsGrouped n.toNat text) ∧
      (∀ n : UInt64, (∃ c ∈ (thousands n).toList.head?, c.isDigit = true) ∧
        ∃ c ∈ (thousands n).toList.getLast?, c.isDigit = true) ∧
      Function.Injective thousands := by
  refine ⟨fun n text => eq_thousands_iff, fun n => ?_, fun n m h => ?_⟩
  · obtain ⟨hne, hdigit⟩ := Decimal.isDigits_digits n.toNat
    rw [thousands, String.toList_ofList, head?_groupDigits, getLast?_groupDigits]
    exact ⟨⟨_, List.head?_eq_some_head hne, hdigit _ (List.head_mem hne)⟩,
      ⟨_, List.getLast?_eq_some_getLast hne, hdigit _ (List.getLast_mem hne)⟩⟩
  · -- Without its commas, the text is the numeral of both.
    have hn := (eq_thousands_iff.1 (Eq.refl (thousands n))).numeral.value
    have hm := (eq_thousands_iff.1 h).numeral.value
    exact UInt64.toNat_inj.1 (hn.symm.trans hm)

end RunTrace.Display
