import RunTrace.Trajectory
import RunTrace.Decimal.Basic

/-!
# The demo trajectory

The trajectory of a made-up run, with a tool call that is still running, a failure, and a chain
of subcalls that goes deeper than is displayed by default.
-/

namespace RunTrace.DemoTrajectory

/-- The day of the run. -/
def day : Date :=
  ⟨2026, 2, 20, by decide⟩

/-- The second of the day at which the run starts. -/
def startSecond : Nat := 10 * 3600

/-- A moment of the run, in milliseconds from its start. -/
def moment (ms : Nat) : Timestamp where
  date := day
  second := (startSecond + ms / 1000) % secondsPerDay
  nano := ms % 1000 * 1000000
  second_lt := Nat.mod_lt _ (by decide)
  nano_lt := .inl (by
    simp only [nanosPerSecond]
    omega)

/-- A completed subcall without tool calls, which started at a moment and took a number of
milliseconds; its cost is in thousandths. -/
def call (id name : String) (depth : UInt32) (start duration input output cost : Nat) : Call where
  id := id
  depth := depth
  name := name
  outcome := .success
  startedAt := moment start
  completedAt := some (moment (start + duration))
  durationMs := UInt64.ofNat duration
  tokens := ⟨UInt64.ofNat input, UInt64.ofNat output⟩
  cost := Decimal.toFloat ⟨cost, -3⟩
  toolCalls := []
  error := none

/-- The chain of subcalls from a level on, of a number of levels. -/
def chain (level : Nat) : Nat → Forest Call
  | 0 => .nil
  | more + 1 =>
    let number := Decimal.ofNat level
    let link := call ("recurse-" ++ number) ("rlm.subquery level " ++ number) (UInt32.ofNat level)
      (1000 * level) (4000 + 700 * level) (900 + 40 * level) (300 + 10 * level) (10 + 2 * level)
    .cons { link with
        toolCalls :=
          [⟨link.id ++ "-peek", "context.peek", .success, UInt64.ofNat (120 + level)⟩] }
      (chain (level + 1) more) .nil

/-- The first root. -/
def root : Call :=
  { call "root" "rlm.run: audit dependency graph" 0 0 300000 5000 1800 120 with
    toolCalls := [⟨"root-read", "file_read", .success, 85⟩, ⟨"root-list", "list_dir", .success, 40⟩,
      ⟨"root-exec", "shell", .running, 12000⟩] }

/-- A subcall that failed. -/
def locate : Call :=
  { call "locate" "rlm.locate symbol" 1 700 950 600 40 10 with
    outcome := .failure
    toolCalls := [⟨"locate-grep", "grep", .failure, 310⟩]
    error := some "context window exceeded while scanning shard 7" }

/-- All subcalls. -/
def subcalls : Forest Call :=
  .cons root
    (.cons (call "summarize" "rlm.summarize chunk" 1 500 2300 1500 420 20) .nil
      (.cons locate .nil (chain 1 12)))
    (.cons (call "followup" "rlm.answer" 0 0 1800 700 350 15) .nil .nil)

end RunTrace.DemoTrajectory

namespace RunTrace

/-- The demo trajectory. -/
def demoTrajectory : Trajectory where
  runId := "run-7f3a"
  totalSubcalls := 16
  maxDepth := 12
  totalTokens := ⟨21720, 6990⟩
  totalCost := Decimal.toFloat ⟨441, -3⟩
  totalDurationMs := 301800
  subcalls := DemoTrajectory.subcalls

end RunTrace
