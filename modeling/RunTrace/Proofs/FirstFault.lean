import RunTrace.Proofs.Visibility
import RunTrace.Proofs.Validity

/-!
# The fault that is reported

Validation stops at the first subcall of the walk that breaks a rule, and reports the first of the
rules that it breaks. Here both are said without the pass that finds them: the rules are a list,
each is obeyed or broken at a position of the walk by itself, and the fault that is reported belongs
to the first position and rule in this order.

## Main results

* `Validation.checkCall_eq_error_iff`: a single check reports the first rule that is broken;
* `Validation.checkWalk_eq_error_iff`: a pass reports what the check at the first position reports
  that has a fault;
* `validate_eq_error`: a trajectory is rejected exactly if some position breaks a rule, and then
  the fault is about the first such position and rule, tells the truth about it, and depends on
  nothing behind it.
-/

namespace RunTrace

namespace Validation

/-! ## Rules -/

/-- What is checked of a subcall. -/
inductive Rule where
  /-- The recorded depth is the one in the tree. -/
  | depth
  /-- No earlier subcall has the same id. -/
  | uniqueId
  /-- Exactly the failures carry an error. -/
  | error
  /-- The cost is finite and not negative. -/
  | cost
  deriving DecidableEq

namespace Rule

/-- All rules in the order in which they are checked. -/
def all : List Rule :=
  [depth, uniqueId, error, cost]

/-- The rules that are checked earlier than another one. -/
def before (rule : Rule) : List Rule :=
  all.takeWhile (· ≠ rule)

/-- A call on a level of the tree obeys a rule, where `ids` are the ids in front of it in the
walk. -/
def Obeyed (level : Nat) (ids : List String) (call : Call) : Rule → Prop
  | depth => call.depth.toNat = level
  | uniqueId => call.id ∉ ids
  | error => call.error.isSome = true ↔ call.outcome = .failure
  | cost => ValidCost call.cost

/-- Whether a rule is obeyed is decidable. -/
instance (level : Nat) (ids : List String) (call : Call) :
    DecidablePred (Obeyed level ids call)
  | depth => inferInstanceAs (Decidable (_ = _))
  | uniqueId => inferInstanceAs (Decidable (_ ∉ _))
  | error => inferInstanceAs (Decidable (_ ↔ _))
  | cost => inferInstanceAs (Decidable (ValidCost _))

/-- The fault that is reported for a call that breaks a rule, where `expected` is its depth in the
tree. -/
def fault (expected : UInt32) (call : Call) : Rule → Fault
  | depth => .depthMismatch call.id expected call.depth
  | uniqueId => .duplicateId call.id
  | error => .errorOutcomeMismatch call.id call.outcome
  | cost => .invalidCost call.id call.cost

/-- The order of the ids does not matter. -/
theorem obeyed_reverse (level : Nat) (ids : List String) (call : Call) (rule : Rule) :
    rule.Obeyed level ids.reverse call ↔ rule.Obeyed level ids call := by
  cases rule <;> simp [Obeyed]

end Rule

/-- A check accepts a call exactly if the call obeys all rules. -/
theorem checkCall_eq_ok_iff_obeyed (depth : UInt32) (seen : List String) (call : Call) :
    checkCall depth seen call = .ok () ↔ ∀ rule : Rule, rule.Obeyed depth.toNat seen call := by
  rw [checkCall_eq_ok_iff]
  constructor
  · rintro ⟨sound, hid⟩ rule
    cases rule with
    | depth => exact congrArg UInt32.toNat sound.depth_eq
    | uniqueId => exact hid
    | error => exact sound.error_iff
    | cost => exact sound.cost_valid
  · intro h
    exact ⟨⟨UInt32.toNat.inj (h .depth), h .error, h .cost⟩, h .uniqueId⟩

/-- A check reports the first rule that a call breaks. -/
theorem checkCall_eq_error_iff (depth : UInt32) (seen : List String) (call : Call)
    (fault : Fault) :
    checkCall depth seen call = .error fault ↔
      ∃ rule : Rule, ¬ rule.Obeyed depth.toNat seen call ∧
        (∀ other ∈ rule.before, other.Obeyed depth.toNat seen call) ∧
        fault = rule.fault depth call := by
  have hdepth : call.depth ≠ depth ↔ ¬ Rule.depth.Obeyed depth.toNat seen call :=
    not_congr UInt32.toNat_inj.symm
  have hid : call.id ∈ seen ↔ ¬ Rule.uniqueId.Obeyed depth.toNat seen call := not_not.symm
  have herror : call.outcome.isFailure ≠ call.error.isSome ↔
      ¬ Rule.error.Obeyed depth.toNat seen call := not_congr (isFailure_eq_isSome_iff call)
  have hcost : (!call.cost.isFinite || decide (call.cost < 0)) = true ↔
      ¬ Rule.cost.Obeyed depth.toNat seen call := not_validCost_iff call.cost
  unfold checkCall
  rw [if_congr hdepth rfl rfl, if_congr hid rfl rfl, if_congr herror rfl rfl,
    if_congr hcost rfl rfl]
  constructor
  -- The rules that are checked before the one at which the check stops are obeyed.
  · intro h
    split at h
    · next hbroken =>
      exact ⟨.depth, hbroken, by simp [Rule.before, Rule.all], (Except.error.inj h).symm⟩
    · next hdepth =>
      split at h
      · next hbroken =>
        refine ⟨.uniqueId, hbroken, ?_, (Except.error.inj h).symm⟩
        simpa [Rule.before, Rule.all] using hdepth
      · next hid =>
        split at h
        · next hbroken =>
          refine ⟨.error, hbroken, ?_, (Except.error.inj h).symm⟩
          simpa [Rule.before, Rule.all] using And.intro (not_not.1 hdepth) (not_not.1 hid)
        · next herror =>
          split at h
          · next hbroken =>
            refine ⟨.cost, hbroken, ?_, (Except.error.inj h).symm⟩
            simpa [Rule.before, Rule.all] using
              And.intro (not_not.1 hdepth) (And.intro (not_not.1 hid) (not_not.1 herror))
          · contradiction
  · rintro ⟨rule, hbroken, hbefore, rfl⟩
    have obeyed : ∀ other ∈ rule.before, ¬ ¬ other.Obeyed depth.toNat seen call :=
      fun other hother => not_not.2 (hbefore other hother)
    cases rule with
    | depth => rw [if_pos hbroken]; rfl
    | uniqueId => rw [if_neg (obeyed .depth (by decide)), if_pos hbroken]; rfl
    | error =>
      rw [if_neg (obeyed .depth (by decide)), if_neg (obeyed .uniqueId (by decide)),
        if_pos hbroken]
      rfl
    | cost =>
      rw [if_neg (obeyed .depth (by decide)), if_neg (obeyed .uniqueId (by decide)),
        if_neg (obeyed .error (by decide)), if_pos hbroken]
      rfl

/-! ## Passes -/

/-- What a pass goes through: the depth of a subcall, and the subcall without those nested in it. -/
def visit (item : UInt32 × Subcall) : UInt32 × Call :=
  (item.1, item.2.value)

/-- A pass looks at no more than that. -/
theorem checkWalk_congr (seen : List String) {items others : List (UInt32 × Subcall)}
    (h : items.map visit = others.map visit) : checkWalk seen items = checkWalk seen others := by
  induction items generalizing seen others with
  | nil =>
    rw [List.map_nil] at h
    rw [List.map_eq_nil_iff.1 h.symm]
  | cons item items ih =>
    obtain ⟨depth, subcall⟩ := item
    rw [List.map_cons] at h
    obtain ⟨⟨depth', subcall'⟩, others, rfl, hitem, hrest⟩ := List.map_eq_cons_iff.1 h.symm
    obtain ⟨rfl, hcall⟩ := Prod.mk.inj hitem
    rw [checkWalk, checkWalk, show subcall'.value = subcall.value from hcall, ih _ hrest.symm]

/-- A pass stops at the first fault. -/
theorem checkWalk_append_of_eq_error {seen : List String} {items : List (UInt32 × Subcall)}
    {fault : Fault} (h : checkWalk seen items = .error fault)
    (behind : List (UInt32 × Subcall)) : checkWalk seen (items ++ behind) = .error fault := by
  induction items generalizing seen with
  | nil => contradiction
  | cons item items ih =>
    obtain ⟨depth, subcall⟩ := item
    rw [List.cons_append, checkWalk] at *
    cases hcheck : checkCall depth seen subcall.value with
    | error found => rwa [hcheck] at h
    | ok =>
      rw [hcheck] at h
      exact ih h

/-- A pass reports what the check at the first position reports that has a fault. -/
theorem checkWalk_eq_error_iff (seen : List String) (items : List (UInt32 × Subcall))
    (fault : Fault) :
    checkWalk seen items = .error fault ↔
      ∃ position item, items[position]? = some item ∧
        checkWalk seen (items.take position) = .ok () ∧
        checkCall item.1 (((items.take position).map (·.2.value.id)).reverse ++ seen)
          item.2.value = .error fault := by
  induction items generalizing seen with
  | nil => simp [checkWalk]
  | cons item items ih =>
    obtain ⟨depth, subcall⟩ := item
    rw [← Nat.or_exists_add_one, checkWalk]
    simp only [List.getElem?_cons_zero, List.getElem?_cons_succ, List.take_zero,
      List.take_succ_cons, List.map_cons, List.reverse_cons, List.append_assoc,
      List.singleton_append, checkWalk]
    cases hcheck : checkCall depth seen subcall.value with
    | error found => simp [hcheck, bind, Except.bind]
    | ok => simp [hcheck, bind, Except.bind, ih]

/-- A pass accepts what the check accepts at every position. -/
theorem checkWalk_eq_ok_iff_forall (seen : List String) (items : List (UInt32 × Subcall)) :
    checkWalk seen items = .ok () ↔
      ∀ position item, items[position]? = some item →
        checkCall item.1 (((items.take position).map (·.2.value.id)).reverse ++ seen)
          item.2.value = .ok () := by
  constructor
  · intro h position item hitem
    cases hcheck : checkCall item.1 (((items.take position).map (·.2.value.id)).reverse ++ seen)
        item.2.value with
    | ok => rfl
    | error fault =>
      -- A pass that does not stop in front of the position stops there.
      cases hfront : checkWalk seen (items.take position) with
      | error earlier =>
        have := checkWalk_append_of_eq_error hfront (items.drop position)
        rw [List.take_append_drop, h] at this
        contradiction
      | ok =>
        have := (checkWalk_eq_error_iff seen items fault).2 ⟨position, item, hitem, hfront, hcheck⟩
        rw [h] at this
        contradiction
  · intro h
    cases hpass : checkWalk seen items with
    | ok => rfl
    | error fault =>
      obtain ⟨position, item, hitem, -, hcheck⟩ := (checkWalk_eq_error_iff seen items fault).1 hpass
      rw [h position item hitem] at hcheck
      contradiction

end Validation

open Validation

/-! ## Positions of a trajectory -/

/-- The subcall at a position of the walk breaks a rule. -/
def Trajectory.BreaksAt (trajectory : Trajectory) (position : Nat) (rule : Rule) : Prop :=
  ∃ item, trajectory.subcalls.placed[position]? = some item ∧
    ¬ rule.Obeyed (item.1.length - 1)
      ((trajectory.subcalls.placed.take position).map (·.2.value.id)) item.2.value

/-- No earlier position of the walk breaks any rule, and this position breaks no rule that is
checked earlier. -/
structure Trajectory.FirstBreak (trajectory : Trajectory) (position : Nat) (rule : Rule) :
    Prop where
  breaksAt : trajectory.BreaksAt position rule
  earlier : ∀ other < position, ∀ rule, ¬ trajectory.BreaksAt other rule
  before : ∀ other ∈ rule.before, ¬ trajectory.BreaksAt position other

/-- What a fault tells of the subcall at a position of the walk is so. -/
def Validation.Fault.HoldsAt (trajectory : Trajectory) (position : Nat)
    (item : List Nat × Subcall) : Fault → Prop
  | .depthMismatch id expected found =>
    id = item.2.value.id ∧ expected.toNat = item.1.length - 1 ∧ found = item.2.value.depth ∧
      found ≠ expected
  | .duplicateId id =>
    id = item.2.value.id ∧ ∃ earlier < position, ∃ other,
      trajectory.subcalls.placed[earlier]? = some other ∧ other.2.value.id = id
  | .errorOutcomeMismatch id outcome =>
    let told := "subcall '" ++ id ++ "' is " ++ outcome.name ++ " but "
    let message := (Fault.errorOutcomeMismatch id outcome).message
    id = item.2.value.id ∧ outcome = item.2.value.outcome ∧
      (message = told ++ "has no error message" ↔
        item.2.value.outcome = .failure ∧ item.2.value.error = none) ∧
      (message = told ++ "carries an error message" ↔
        item.2.value.outcome ≠ .failure ∧ item.2.value.error.isSome = true)
  | .invalidCost id cost =>
    id = item.2.value.id ∧ cost = item.2.value.cost ∧ ¬ ValidCost cost

section Positions

variable {trajectory : Trajectory}

/-- At each position the walk visits what is there, at its depth. -/
theorem getElem?_walk (trajectory : Trajectory) (position : Nat) :
    trajectory.walk[position]? = trajectory.subcalls.placed[position]?.map
      fun (place, subcall) => (Forest.depthAt 0 place, subcall) := by
  rw [trajectory.walk_eq_preorder, Forest.preorder_eq_map_placed, List.getElem?_map]

variable (height : trajectory.subcalls.height < UInt32.size)
include height

/-- The depth of the walk at a position is the number of levels above the place there. -/
theorem toNat_depthAt_of_getElem? {position : Nat} {item : List Nat × Subcall}
    (hitem : trajectory.subcalls.placed[position]? = some item) :
    (Forest.depthAt 0 item.1).toNat = item.1.length - 1 :=
  Forest.toNat_depthAt_of_at? height (Forest.mem_placed.1 (List.mem_of_getElem? hitem))

/-- The rules that are obeyed where the walk is are those that the position does not break. -/
theorem obeyed_walk_iff {position : Nat} {item : List Nat × Subcall}
    (hitem : trajectory.subcalls.placed[position]? = some item) (rule : Rule) :
    rule.Obeyed (Forest.depthAt 0 item.1).toNat
        (((trajectory.walk.take position).map (·.2.value.id)).reverse ++ []) item.2.value ↔
      ¬ trajectory.BreaksAt position rule := by
  have hids : (trajectory.walk.take position).map (·.2.value.id) =
      (trajectory.subcalls.placed.take position).map (·.2.value.id) := by
    rw [trajectory.walk_eq_preorder, Forest.preorder_eq_map_placed, ← List.map_take, List.map_map]
    rfl
  rw [List.append_nil, Rule.obeyed_reverse, hids, toNat_depthAt_of_getElem? height hitem,
    Trajectory.BreaksAt]
  simp [hitem]

/-- The pass over a part of the walk from its start accepts it just if no position in it breaks a
rule. -/
theorem checkWalk_take_eq_ok_iff (count : Nat) :
    checkWalk [] (trajectory.walk.take count) = .ok () ↔
      ∀ position < count, ∀ rule, ¬ trajectory.BreaksAt position rule := by
  rw [checkWalk_eq_ok_iff_forall]
  constructor
  · intro h position hposition rule hbreaks
    obtain ⟨item, hitem, hbroken⟩ := hbreaks
    have hcheck := h position (Forest.depthAt 0 item.1, item.2) (by
      rw [List.getElem?_take_of_lt hposition, getElem?_walk, hitem]
      rfl)
    rw [List.take_take, Nat.min_eq_left (Nat.le_of_lt hposition),
      checkCall_eq_ok_iff_obeyed] at hcheck
    exact (obeyed_walk_iff height hitem rule).1 (hcheck rule) ⟨item, hitem, hbroken⟩
  · intro h position visited hvisited
    rw [List.getElem?_take, Option.ite_none_right_eq_some, getElem?_walk,
      Option.map_eq_some_iff] at hvisited
    obtain ⟨hposition, item, hitem, rfl⟩ := hvisited
    rw [List.take_take, Nat.min_eq_left (Nat.le_of_lt hposition), checkCall_eq_ok_iff_obeyed]
    exact fun rule => (obeyed_walk_iff height hitem rule).2 (h position hposition rule)

/-- The fault that is reported of a part of the walk from its start is the one of the first position
and rule. -/
theorem checkWalk_take_eq_error_iff (count : Nat) (fault : Fault) :
    checkWalk [] (trajectory.walk.take count) = .error fault ↔
      ∃ position < count, ∃ rule item, trajectory.subcalls.placed[position]? = some item ∧
        trajectory.FirstBreak position rule ∧
        fault = rule.fault (Forest.depthAt 0 item.1) item.2.value := by
  rw [checkWalk_eq_error_iff]
  constructor
  · rintro ⟨position, visited, hvisited, hfront, hcheck⟩
    rw [List.getElem?_take, Option.ite_none_right_eq_some, getElem?_walk,
      Option.map_eq_some_iff] at hvisited
    obtain ⟨hposition, item, hitem, rfl⟩ := hvisited
    rw [List.take_take, Nat.min_eq_left (Nat.le_of_lt hposition)] at hfront hcheck
    obtain ⟨rule, hbroken, hbefore, rfl⟩ := (checkCall_eq_error_iff _ _ _ _).1 hcheck
    refine ⟨position, hposition, rule, item, hitem, ⟨?_, ?_, ?_⟩, rfl⟩
    · exact not_not.1 fun h => hbroken ((obeyed_walk_iff height hitem rule).2 h)
    · exact (checkWalk_take_eq_ok_iff height position).1 hfront
    · exact fun other hother => (obeyed_walk_iff height hitem other).1 (hbefore other hother)
  · rintro ⟨position, hposition, rule, item, hitem, hfirst, rfl⟩
    refine ⟨position, (Forest.depthAt 0 item.1, item.2), ?_, ?_, ?_⟩
    · rw [List.getElem?_take_of_lt hposition, getElem?_walk, hitem]
      rfl
    · rw [List.take_take, Nat.min_eq_left (Nat.le_of_lt hposition)]
      exact (checkWalk_take_eq_ok_iff height position).2 hfirst.earlier
    · rw [List.take_take, Nat.min_eq_left (Nat.le_of_lt hposition)]
      refine (checkCall_eq_error_iff _ _ _ _).2 ⟨rule, ?_, fun other hother => ?_, rfl⟩
      · exact fun h => (obeyed_walk_iff height hitem rule).1 h hfirst.breaksAt
      · exact (obeyed_walk_iff height hitem other).2 (hfirst.before other hother)

end Positions

/-- What is reported of a rule that is broken is so. -/
theorem holdsAt_fault {trajectory : Trajectory}
    (height : trajectory.subcalls.height < UInt32.size) {position : Nat} {rule : Rule}
    {item : List Nat × Subcall} (hitem : trajectory.subcalls.placed[position]? = some item)
    (hbreaks : trajectory.BreaksAt position rule) :
    (rule.fault (Forest.depthAt 0 item.1) item.2.value).HoldsAt trajectory position item := by
  have hexpected := toNat_depthAt_of_getElem? height hitem
  obtain ⟨found, hfound, hbroken⟩ := hbreaks
  obtain rfl : found = item := Option.some.inj (hfound.symm.trans hitem)
  cases rule with
  | depth =>
    refine ⟨rfl, hexpected, rfl, fun h => hbroken ?_⟩
    exact (congrArg UInt32.toNat h).trans hexpected
  | uniqueId =>
    refine ⟨rfl, ?_⟩
    obtain ⟨other, hother, hid⟩ := List.mem_map.1 (not_not.1 hbroken)
    obtain ⟨earlier, hearlier⟩ := List.mem_iff_getElem?.1 hother
    rw [List.getElem?_take, Option.ite_none_right_eq_some] at hearlier
    exact ⟨earlier, hearlier.1, other, hearlier.2, hid⟩
  | error =>
    -- A failure lacks its error, or another outcome has one.
    have hmismatch : ¬ (found.2.value.error.isSome = true ↔ found.2.value.outcome = .failure) :=
      hbroken
    refine ⟨rfl, rfl, ?_, ?_⟩ <;>
      rw [Fault.message, String.append_right_inj, mismatchDetail] <;>
      cases houtcome : found.2.value.outcome <;> cases herror : found.2.value.error <;>
      simp_all [Outcome.isFailure]
  | cost => exact ⟨rfl, rfl, hbroken⟩

/-- A trajectory is rejected just if at some position of the walk a rule is broken. The fault that
is reported is the one of the first such position and, of the rules that are broken there, of the
first one. What it tells of the subcall there is so: its depth in the tree and the one that was
recorded, an id that an earlier position has, whether an error is missing or should not be there, or
a cost that is not valid. Whatever is behind that position has no influence. -/
theorem validate_eq_error (trajectory : Trajectory)
    (height : trajectory.subcalls.height < UInt32.size) :
    let positions := trajectory.subcalls.placed
    trajectory.walk.map (fun (depth, subcall) => (depth.toNat, subcall)) =
        positions.map (fun (place, subcall) => (place.length - 1, subcall)) ∧
      ((∃ fault, trajectory.validate = .error fault) ↔
        ∃ position rule, trajectory.BreaksAt position rule) ∧
      ∀ fault, trajectory.validate = .error fault →
        ∃ position rule item, positions[position]? = some item ∧
          trajectory.FirstBreak position rule ∧
          (∃ expected : UInt32, expected.toNat = item.1.length - 1 ∧
            fault = rule.fault expected item.2.value) ∧
          fault.HoldsAt trajectory position item ∧
          ∀ other : Trajectory,
            (other.walk.take (position + 1)).map visit =
                (trajectory.walk.take (position + 1)).map visit →
              other.validate = .error fault := by
  intro positions
  -- Validation is the pass over all of the walk, and no position is behind its end.
  have hwhole : trajectory.validate =
      checkWalk [] (trajectory.walk.take trajectory.walk.length) := by
    rw [List.take_length, Trajectory.validate]
  have hposition : ∀ {position item}, positions[position]? = some item →
      position < trajectory.walk.length := by
    intro position item hitem
    rw [trajectory.walk_eq_preorder, Forest.preorder_eq_map_placed, List.length_map]
    exact (List.getElem?_eq_some_iff.1 hitem).1
  refine ⟨walk_eq_map_placed height, ?_, fun fault hfault => ?_⟩
  · have hok : trajectory.validate = .ok () ↔
        ∀ position rule, ¬ trajectory.BreaksAt position rule := by
      rw [hwhole, checkWalk_take_eq_ok_iff height]
      refine ⟨fun h position rule hbreaks => ?_, fun h position _ => h position⟩
      obtain ⟨item, hitem, hbroken⟩ := hbreaks
      exact h position (hposition hitem) rule ⟨item, hitem, hbroken⟩
    cases hresult : trajectory.validate with
    | ok => simpa [hresult] using hok
    | error fault => simpa [hresult] using hok
  · rw [hwhole, checkWalk_take_eq_error_iff height] at hfault
    obtain ⟨position, -, rule, item, hitem, hfirst, rfl⟩ := hfault
    refine ⟨position, rule, item, hitem, hfirst, ⟨_, toNat_depthAt_of_getElem? height hitem, rfl⟩,
      holdsAt_fault height hitem hfirst.breaksAt, fun other hother => ?_⟩
    have hstopped := (checkWalk_take_eq_error_iff height (position + 1) _).2
      ⟨position, Nat.lt_succ_self position, rule, item, hitem, hfirst, rfl⟩
    rw [Trajectory.validate, ← List.take_append_drop (position + 1) other.walk]
    exact checkWalk_append_of_eq_error ((checkWalk_congr [] hother).trans hstopped) _

/-- The demo trajectory with faults. The second subcall has the id of the first one and a cost that
is no number; the last one has a depth that is not the one in the tree. -/
def faultyTrajectory : Trajectory :=
  { demoTrajectory with
    subcalls :=
      .cons DemoTrajectory.root
        (.cons { DemoTrajectory.locate with id := "root", cost := 0 / 0 } .nil .nil)
        (.cons (DemoTrajectory.call "followup" "rlm.answer" 7 0 1800 700 350 15) .nil .nil) }

/-- Of the faulty trajectory the id of the second subcall is reported, not its cost, which is
checked later, nor the depth of the last subcall. That would be reported of any trajectory whose
walk begins with the same two calls. -/
theorem validate_eq_error_demo :
    faultyTrajectory.subcalls.height < UInt32.size ∧
      faultyTrajectory.validate = .error (.duplicateId "root") ∧
      faultyTrajectory.BreaksAt 1 .cost ∧ faultyTrajectory.BreaksAt 2 .depth ∧
      faultyTrajectory.FirstBreak 1 .uniqueId ∧
      ∀ other : Trajectory,
        (other.walk.take 2).map visit = (faultyTrajectory.walk.take 2).map visit →
          other.validate = .error (.duplicateId "root") := by
  have height : faultyTrajectory.subcalls.height < UInt32.size := by decide +kernel
  have hfault : faultyTrajectory.validate = .error (.duplicateId "root") := by decide +kernel
  obtain ⟨-, -, hreported⟩ := validate_eq_error faultyTrajectory height
  obtain ⟨position, rule, item, hitem, hfirst, ⟨expected, -, hrule⟩, hholds, hother⟩ :=
    hreported _ hfault
  obtain rfl : rule = .uniqueId := by cases rule <;> simp_all [Rule.fault]
  obtain ⟨hid, earlier, hearlier, -⟩ := hholds
  -- Only the second position has the id of an earlier one.
  obtain rfl : position = 1 := by
    match position, hearlier, hitem with
    | 1, _, _ => rfl
    | 2, _, hitem =>
      obtain rfl := Option.some.inj hitem
      exact absurd hid (by decide)
  refine ⟨height, hfault, ⟨_, rfl, by decide +kernel⟩, ⟨_, rfl, by decide +kernel⟩, hfirst, hother⟩

end RunTrace
