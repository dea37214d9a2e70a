import Mathlib
import RunTrace.Audit
import RunTrace.Proofs.Validity
import RunTrace.Proofs.Visibility
import RunTrace.Viewer.DemoTrajectory

/-!
# What the audit adds up

The audit goes along the walk and keeps counters in words, which may wrap around, and token counts
that stop at the largest word. Here the totals are compared with what the forest as a whole has:
numbers of subcalls, levels and tool calls, and sums of tokens that are cut off once, at the end.
None of these depends on the order of siblings; only the sum of the costs does, as doubles are
rounded after each addition.

## Main results

* `Totals.AddsUp.count`: one more subcall is counted;
* `Totals.addsUp_ofTrajectory`: so the totals are those of all subcalls of the walk;
* `Forest.Reordered.perm_levels`: siblings in another order leave the depths and values the same;
* `Totals.ofTrajectory_exact`: the totals of a trajectory, and where its summary disagrees.
-/

namespace RunTrace

attribute [ext] TokenCounts

/-! ## Forests -/

namespace Forest

variable {α : Type}

/-- The largest depth of a tree in a forest whose roots are at depth zero; zero if there is none. -/
def deepest (forest : Forest α) : Nat :=
  (forest.placed.map fun item => item.1.length - 1).foldr max 0

/-- The values in pre-order, each with its depth. -/
def levels (depth : UInt32) (forest : Forest α) : List (UInt32 × α) :=
  (forest.preorder depth).map fun item => (item.1, item.2.value)

/-- Two forests that differ in the order of siblings, be it of the roots or of the children of any
tree. -/
inductive Reordered : Forest α → Forest α → Prop
  | nil : Reordered .nil .nil
  | cons {a : α} {children children' rest rest' : Forest α}
      (hchildren : Reordered children children') (hrest : Reordered rest rest') :
      Reordered (.cons a children rest) (.cons a children' rest')
  | swap {a b : α} {below above rest : Forest α} :
      Reordered (.cons a below (.cons b above rest)) (.cons b above (.cons a below rest))
  | trans {first second third : Forest α} (h : Reordered first second)
      (h' : Reordered second third) : Reordered first third

theorem levels_cons (depth : UInt32) (a : α) (children rest : Forest α) :
    (cons a children rest).levels depth =
      ((depth, a) :: children.levels (depth + 1)) ++ rest.levels depth := by
  simp only [levels, preorder, List.map_cons, List.map_append, List.cons_append]

theorem map_snd_levels (depth : UInt32) (forest : Forest α) :
    (forest.levels depth).map (·.2) = forest.toList := by
  rw [levels, List.map_map, ← map_value_subtrees, ← map_snd_preorder depth, List.map_map]
  rfl

/-- Siblings in another order leave the depths and values the same. -/
theorem Reordered.perm_levels {forest other : Forest α} (h : Reordered forest other)
    (depth : UInt32) : (forest.levels depth).Perm (other.levels depth) := by
  induction h generalizing depth with
  | nil => exact .refl _
  | cons _ _ ihchildren ihrest =>
    rw [levels_cons, levels_cons]
    exact ((ihchildren (depth + 1)).cons _).append (ihrest depth)
  | @swap a b below above rest =>
    -- All that belongs to one of the two trees moves past all that belongs to the other.
    simp only [levels_cons]
    apply List.perm_append_comm_assoc
  | trans _ _ ih ih' => exact (ih depth).trans (ih' depth)

@[simp]
theorem length_toList (forest : Forest α) : forest.toList.length = forest.size := by
  rw [← map_value_subtrees, ← map_snd_preorder 0, List.length_map, List.length_map,
    length_preorder]

theorem height_le_size (forest : Forest α) : forest.height ≤ forest.size := by
  induction forest with
  | nil => exact Nat.le_refl 0
  | cons a children rest ihchildren ihrest =>
    rw [height, size]
    omega

end Forest

/-! ## Counting -/

namespace Totals

/-- Totals are those of subcalls at certain depths: the words are those of the numbers, the tokens
are added up and cut off once, and the costs are added in order. -/
structure AddsUp (items : List (UInt32 × Call)) (totals : Totals) : Prop where
  -- These words may wrap around, which makes them the words of the numbers all the same.
  subcalls : totals.subcalls = UInt32.ofNat items.length
  maxDepth : totals.maxDepth.toNat = (items.map (·.1.toNat)).foldr max 0
  input : totals.tokens.input.toNat =
    min (UInt64.size - 1) (items.map (·.2.tokens.input.toNat)).sum
  output : totals.tokens.output.toNat =
    min (UInt64.size - 1) (items.map (·.2.tokens.output.toNat)).sum
  cost : totals.cost = (items.map (·.2.cost)).foldl (· + ·) 0
  toolCalls : totals.toolCalls = UInt32.ofNat (items.map (·.2.toolCalls.length)).sum
  failures : totals.failures = UInt32.ofNat (items.countP (·.2.outcome.isFailure))

theorem addsUp_zero : AddsUp [] zero where
  subcalls := rfl
  maxDepth := rfl
  input := rfl
  output := rfl
  cost := rfl
  toolCalls := rfl
  failures := rfl

theorem foldr_max_concat (ns : List Nat) (n : Nat) :
    (ns ++ [n]).foldr max 0 = max (ns.foldr max 0) n := by
  induction ns with
  | nil => simp
  | cons m ns ih => rw [List.cons_append, List.foldr_cons, ih, List.foldr_cons, Nat.max_assoc]

/-- Tokens that are cut off after every addition are cut off once. -/
theorem toNat_saturatingAdd_of_eq {sum tokens : UInt64} {before : Nat}
    (h : sum.toNat = min (UInt64.size - 1) before) :
    (saturatingAdd sum tokens).toNat = min (UInt64.size - 1) (before + tokens.toNat) := by
  rw [toNat_saturatingAdd, h]
  omega

/-- One more subcall is counted. -/
theorem AddsUp.count {items : List (UInt32 × Call)} {totals : Totals} (h : AddsUp items totals)
    (depth : UInt32) (call : Call) :
    AddsUp (items ++ [(depth, call)]) (totals.count depth call) where
  subcalls := by
    show totals.subcalls + 1 = _
    rw [h.subcalls, List.length_append, UInt32.ofNat_add]
    rfl
  maxDepth := by
    show (max totals.maxDepth depth).toNat = _
    rw [List.map_append, List.map_singleton, foldr_max_concat, ← h.maxDepth]
    exact UInt32.toNat_max ..
  input := by
    rw [List.map_append, List.sum_append, List.map_singleton, List.sum_singleton]
    exact toNat_saturatingAdd_of_eq h.input
  output := by
    rw [List.map_append, List.sum_append, List.map_singleton, List.sum_singleton]
    exact toNat_saturatingAdd_of_eq h.output
  cost := by
    show totals.cost + call.cost = _
    rw [h.cost, List.map_append, List.foldl_append]
    rfl
  toolCalls := by
    show totals.toolCalls + UInt32.ofNat call.toolCalls.length = _
    rw [h.toolCalls, List.map_append, List.sum_append, UInt32.ofNat_add, List.map_singleton,
      List.sum_singleton]
  failures := by
    show totals.failures + (if call.outcome.isFailure then 1 else 0) = _
    rw [h.failures, List.countP_append, UInt32.ofNat_add, List.countP_singleton]
    split <;> rfl

/-- All further subcalls are counted. -/
theorem AddsUp.foldl {done : List (UInt32 × Call)} {totals : Totals} (h : AddsUp done totals)
    (items : List (UInt32 × Call)) :
    AddsUp (done ++ items)
      (items.foldl (fun totals item => totals.count item.1 item.2) totals) := by
  -- The induction is on the subcalls that follow, for whatever has been counted before them.
  induction items generalizing done totals with
  | nil => rwa [List.append_nil]
  | cons item items ih =>
    have hnext := ih (h.count item.1 item.2)
    rwa [List.append_assoc, List.singleton_append] at hnext

/-- The totals of a trajectory are those of the subcalls of its walk. -/
theorem addsUp_ofTrajectory (trajectory : Trajectory) :
    AddsUp (trajectory.subcalls.levels 0) (ofTrajectory trajectory) := by
  have hcounted := addsUp_zero.foldl (trajectory.subcalls.levels 0)
  rw [Forest.levels, List.foldl_map, ← trajectory.walk_eq_preorder] at hcounted
  rwa [Forest.levels, ← trajectory.walk_eq_preorder]

/-- Up to the cost, totals do not depend on the order of the subcalls. -/
theorem AddsUp.eq_of_perm {items others : List (UInt32 × Call)} {totals reordered : Totals}
    (h : AddsUp items totals) (hother : AddsUp others reordered) (hperm : items.Perm others) :
    reordered.subcalls = totals.subcalls ∧ reordered.maxDepth = totals.maxDepth ∧
      reordered.tokens = totals.tokens ∧ reordered.toolCalls = totals.toolCalls ∧
      reordered.failures = totals.failures := by
  -- A maximum and a sum of numbers are the same in any order.
  have hmax : (others.map (·.1.toNat)).foldr max 0 = (items.map (·.1.toNat)).foldr max 0 :=
    (hperm.map _).foldr_op_eq.symm
  have hsum : ∀ f : UInt32 × Call → Nat, (others.map f).sum = (items.map f).sum :=
    fun f => (hperm.map f).sum_eq.symm
  refine ⟨?_, ?_, ?_, ?_, ?_⟩
  · rw [hother.subcalls, h.subcalls, hperm.length_eq]
  · apply UInt32.toNat_inj.1
    rw [hother.maxDepth, h.maxDepth, hmax]
  · apply TokenCounts.ext
    · apply UInt64.toNat_inj.1
      rw [hother.input, h.input, hsum]
    · apply UInt64.toNat_inj.1
      rw [hother.output, h.output, hsum]
  · rw [hother.toolCalls, h.toolCalls, hsum]
  · rw [hother.failures, h.failures, hperm.countP_eq]

/-! ## The totals of a trajectory -/

section

variable {trajectory : Trajectory}

/-- If there are not too many levels, the largest depth in the walk is that of a place. -/
theorem foldr_max_levels_of_height (hheight : trajectory.subcalls.height < UInt32.size) :
    ((trajectory.subcalls.levels 0).map (·.1.toNat)).foldr max 0 = trajectory.subcalls.deepest := by
  have hdepths := congrArg (List.map (·.1)) (walk_eq_map_placed hheight)
  rw [List.map_map, List.map_map] at hdepths
  rw [Forest.levels, ← trajectory.walk_eq_preorder, List.map_map, Forest.deepest]
  exact congrArg (List.foldr max 0) hdepths

/-- If there are not too many subcalls, the largest depth in the walk is that of a place: a tree has
no more levels than subcalls, so depths do not wrap around either. -/
theorem foldr_max_levels (hsubcalls : trajectory.subcalls.size < UInt32.size) :
    ((trajectory.subcalls.levels 0).map (·.1.toNat)).foldr max 0 = trajectory.subcalls.deepest :=
  foldr_max_levels_of_height
    (Nat.lt_of_le_of_lt trajectory.subcalls.height_le_size hsubcalls)

theorem map_levels {β : Type} (f : Call → β) :
    (trajectory.subcalls.levels 0).map (fun item => f item.2) =
      trajectory.subcalls.toList.map f := by
  rw [← trajectory.subcalls.map_snd_levels 0, List.map_map]
  rfl

theorem countP_levels : (trajectory.subcalls.levels 0).countP (·.2.outcome.isFailure) =
    trajectory.subcalls.toList.countP (·.outcome = .failure) := by
  rw [← trajectory.subcalls.map_snd_levels 0, List.countP_map]
  refine List.countP_congr fun item _ => ?_
  rw [Validation.isFailure_iff]
  exact decide_eq_true_iff.symm

theorem not_isEmpty_iff : (!trajectory.isEmpty) = true ↔ 0 < trajectory.subcalls.size := by
  rw [Trajectory.isEmpty]
  cases trajectory.subcalls with
  | nil => exact iff_of_false Bool.false_ne_true (Nat.lt_irrefl 0)
  | cons a children rest =>
    refine iff_of_true rfl ?_
    rw [Forest.size]
    omega

end

/-- A line is written for a discrepancy that is there. -/
theorem map_message_ite {differs stated : Prop} [Decidable differs] [Decidable stated]
    (h : differs ↔ stated) (discrepancy : Discrepancy) :
    (if differs then [discrepancy] else []).map Discrepancy.message =
      if stated then [discrepancy.message] else [] := by
  by_cases hstated : stated
  · rw [if_pos (h.2 hstated), if_pos hstated, List.map_singleton]
  · rw [if_neg (mt h.1 hstated), if_neg hstated, List.map_nil]

/-- The lines for the discrepancies, by the numbers that the words stand for. -/
theorem map_message_discrepancies (totals : Totals) (trajectory : Trajectory) :
    (totals.discrepancies trajectory).map Discrepancy.message =
      (if trajectory.totalSubcalls.toNat ≠ totals.subcalls.toNat then
        ["totalSubcalls is " ++ Decimal.ofNat trajectory.totalSubcalls.toNat
          ++ " but the tree has " ++ Decimal.ofNat totals.subcalls.toNat] else [])
      ++ (if 0 < trajectory.subcalls.size ∧
          trajectory.maxDepth.toNat ≠ totals.maxDepth.toNat then
        ["maxDepth is " ++ Decimal.ofNat trajectory.maxDepth.toNat
          ++ " but the tree reaches " ++ Decimal.ofNat totals.maxDepth.toNat] else [])
      ++ (if trajectory.totalTokens.input.toNat ≠ totals.tokens.input.toNat ∨
          trajectory.totalTokens.output.toNat ≠ totals.tokens.output.toNat then
        ["totalTokens is " ++ (Decimal.ofNat trajectory.totalTokens.input.toNat ++ "/"
            ++ Decimal.ofNat trajectory.totalTokens.output.toNat) ++ " but the tree sums to "
          ++ (Decimal.ofNat totals.tokens.input.toNat ++ "/"
            ++ Decimal.ofNat totals.tokens.output.toNat)] else [])
      ++ (if 0.005 < (totals.cost - trajectory.totalCost).abs then
        ["totalCost is " ++ Decimal.fixed 4 trajectory.totalCost ++ " but the tree sums to "
          ++ Decimal.fixed 4 totals.cost] else []) := by
  -- Words differ exactly if the numbers do for which they stand.
  have hsubcalls : totals.subcalls ≠ trajectory.totalSubcalls ↔
      trajectory.totalSubcalls.toNat ≠ totals.subcalls.toNat := by
    rw [ne_comm, Ne, Ne, UInt32.toNat_inj]
  have hdepth : !trajectory.isEmpty ∧ totals.maxDepth ≠ trajectory.maxDepth ↔
      0 < trajectory.subcalls.size ∧ trajectory.maxDepth.toNat ≠ totals.maxDepth.toNat := by
    rw [not_isEmpty_iff, ne_comm, Ne, Ne, UInt32.toNat_inj]
  have htokens : totals.tokens ≠ trajectory.totalTokens ↔
      trajectory.totalTokens.input.toNat ≠ totals.tokens.input.toNat ∨
        trajectory.totalTokens.output.toNat ≠ totals.tokens.output.toNat := by
    rw [ne_comm, Ne, TokenCounts.ext_iff, Decidable.not_and_iff_not_or_not, ← UInt64.toNat_inj,
      ← UInt64.toNat_inj]
  rw [discrepancies, List.map_append, List.map_append, List.map_append,
    map_message_ite hsubcalls, map_message_ite hdepth, map_message_ite htokens,
    map_message_ite Iff.rfl]
  rfl

/-- The audit finds what the tree has, if its subcalls and tool calls can be counted in words: the
number of subcalls, the largest depth of any place, the exact sums of the tokens, cut off at the
largest word, the number of tool calls and the number of failures. Siblings in another order make
no difference to these. The summary is told to disagree in the number of subcalls, in the largest
depth (unless there is no subcall), in the tokens and in the cost, in this order, each exactly if it
states something else; for the cost this is a difference of more than `0.005` to the costs that are
added in pre-order. -/
theorem ofTrajectory_exact {trajectory : Trajectory}
    (hsubcalls : trajectory.subcalls.size < UInt32.size)
    (htools : (trajectory.subcalls.toList.map (·.toolCalls.length)).sum < UInt32.size) :
    let calls := trajectory.subcalls.toList
    let totals := ofTrajectory trajectory
    let size := trajectory.subcalls.size
    let deepest := trajectory.subcalls.deepest
    let input := min (UInt64.size - 1) (calls.map (·.tokens.input.toNat)).sum
    let output := min (UInt64.size - 1) (calls.map (·.tokens.output.toNat)).sum
    let cost := (calls.map (·.cost)).foldl (· + ·) 0
    totals.subcalls.toNat = size ∧
      totals.maxDepth.toNat = deepest ∧
      totals.tokens.input.toNat = input ∧
      totals.tokens.output.toNat = output ∧
      totals.toolCalls.toNat = (calls.map (·.toolCalls.length)).sum ∧
      totals.failures.toNat = calls.countP (·.outcome = .failure) ∧
      (∀ other : Trajectory, trajectory.subcalls.Reordered other.subcalls →
        let reordered := ofTrajectory other
        reordered.subcalls = totals.subcalls ∧ reordered.maxDepth = totals.maxDepth ∧
          reordered.tokens = totals.tokens ∧ reordered.toolCalls = totals.toolCalls ∧
          reordered.failures = totals.failures) ∧
      (totals.discrepancies trajectory).map Discrepancy.message =
        (if trajectory.totalSubcalls.toNat ≠ size then
          ["totalSubcalls is " ++ Decimal.ofNat trajectory.totalSubcalls.toNat
            ++ " but the tree has " ++ Decimal.ofNat size] else [])
        ++ (if 0 < size ∧ trajectory.maxDepth.toNat ≠ deepest then
          ["maxDepth is " ++ Decimal.ofNat trajectory.maxDepth.toNat
            ++ " but the tree reaches " ++ Decimal.ofNat deepest] else [])
        ++ (if trajectory.totalTokens.input.toNat ≠ input ∨
            trajectory.totalTokens.output.toNat ≠ output then
          ["totalTokens is " ++ (Decimal.ofNat trajectory.totalTokens.input.toNat ++ "/"
              ++ Decimal.ofNat trajectory.totalTokens.output.toNat) ++ " but the tree sums to "
            ++ (Decimal.ofNat input ++ "/" ++ Decimal.ofNat output)] else [])
        ++ (if 0.005 < (cost - trajectory.totalCost).abs then
          ["totalCost is " ++ Decimal.fixed 4 trajectory.totalCost ++ " but the tree sums to "
            ++ Decimal.fixed 4 cost] else []) := by
  intro calls totals size deepest input output cost
  have hadds := addsUp_ofTrajectory trajectory
  -- No word wraps around, as neither subcalls nor tool calls are too many.
  have hsize : totals.subcalls.toNat = size := by
    rw [hadds.subcalls, Forest.levels, List.length_map, Forest.length_preorder]
    exact UInt32.toNat_ofNat_of_lt' hsubcalls
  have hdepth : totals.maxDepth.toNat = deepest := by
    rw [hadds.maxDepth, foldr_max_levels hsubcalls]
  have hinput : totals.tokens.input.toNat = input := by
    rw [hadds.input, map_levels fun call => call.tokens.input.toNat]
  have houtput : totals.tokens.output.toNat = output := by
    rw [hadds.output, map_levels fun call => call.tokens.output.toNat]
  have hcost : totals.cost = cost := by
    rw [hadds.cost, map_levels fun call => call.cost]
  have htoolCalls : totals.toolCalls.toNat = (calls.map (·.toolCalls.length)).sum := by
    rw [hadds.toolCalls, map_levels fun call => call.toolCalls.length]
    exact UInt32.toNat_ofNat_of_lt' htools
  have hfailures : totals.failures.toNat = calls.countP (·.outcome = .failure) := by
    rw [hadds.failures, countP_levels, UInt32.toNat_ofNat_of_lt']
    exact Nat.lt_of_le_of_lt List.countP_le_length (by rwa [trajectory.subcalls.length_toList])
  refine ⟨hsize, hdepth, hinput, houtput, htoolCalls, hfailures, fun other h => ?_, ?_⟩
  · exact hadds.eq_of_perm (addsUp_ofTrajectory other) (h.perm_levels 0)
  · rw [map_message_discrepancies, hsize, hdepth, hinput, houtput, hcost]

/-- The demo trajectory with further roots in front. -/
def extendedTrajectory (roots : Forest Call → Forest Call) : Trajectory :=
  { demoTrajectory with subcalls := roots demoTrajectory.subcalls }

/-- A root with more tokens than can be recorded together with others. -/
def largest : Call :=
  DemoTrajectory.call "largest" "rlm.answer" 0 0 1800 (UInt64.size - 1) 350 15

/-- A root with few tokens. -/
def small : Call :=
  DemoTrajectory.call "small" "rlm.answer" 0 0 1800 700 350 15

/-- With two more roots in either order, the tokens that are read come to the largest word, and the
summary disagrees in all but the depth. -/
theorem ofTrajectory_exact_demo :
    let trajectory := extendedTrajectory fun rest => .cons largest .nil (.cons small .nil rest)
    let other := extendedTrajectory fun rest => .cons small .nil (.cons largest .nil rest)
    trajectory.subcalls.size < UInt32.size ∧
      (trajectory.subcalls.toList.map (·.toolCalls.length)).sum < UInt32.size ∧
      trajectory.subcalls.Reordered other.subcalls ∧
      (ofTrajectory trajectory).subcalls.toNat = 18 ∧
      (ofTrajectory trajectory).tokens.input.toNat = UInt64.size - 1 ∧
      (ofTrajectory other).tokens = (ofTrajectory trajectory).tokens ∧
      ((ofTrajectory trajectory).discrepancies trajectory).map Discrepancy.message = [
        "totalSubcalls is 16 but the tree has 18",
        "totalTokens is 21720/6990 but the tree sums to 18446744073709551615/7690",
        "totalCost is 0.4410 but the tree sums to 0.4710"] := by
  intro trajectory other
  have hsubcalls : trajectory.subcalls.size < UInt32.size := by decide +kernel
  have htools : (trajectory.subcalls.toList.map (·.toolCalls.length)).sum < UInt32.size := by
    decide +kernel
  have hreordered : trajectory.subcalls.Reordered other.subcalls := .swap
  obtain ⟨hsize, -, hinput, -, -, -, horder, hlines⟩ := ofTrajectory_exact hsubcalls htools
  refine ⟨hsubcalls, htools, hreordered, hsize.trans (by decide +kernel),
    hinput.trans (by decide +kernel), (horder other hreordered).2.2.1, hlines.trans ?_⟩
  decide +kernel

end Totals

end RunTrace
