/-
# User.ButtonScan -- one trigger for every press

`Button_Scan` of `User/thread_Eink.c`, called once for every sample of a pin.  A pressed pin
reads `RESET`.  The button triggers at the third sample in a row that is pressed and is then
off until two samples in a row are released.

One counter serves both phases.  The invariant (`Tracks`) says in every state what the last
samples were and whether a trigger is still to be ended, and gives the law of the button over
all sequences of samples (`triggers_iff`).
-/
import Mathlib.Data.List.Basic

namespace EinkLiteOS.User

set_option autoImplicit false

/-- `BitAction` -/
inductive BitAction where
  | reset | set
  deriving DecidableEq, Repr

/-- `ButtonState_t` -/
inductive ButtonState where
  | idle | pressed | waitRelease
  deriving DecidableEq, Repr

/-- `Button_t`, without the pin. -/
structure Button where
  state : ButtonState
  debounceCounter : UInt8
  deriving DecidableEq, Repr

/-- `Button_Scan`, given the sample it reads: the button after it and what it returns. -/
def buttonScan (btn : Button) (currentState : BitAction) : Button × UInt8 :=
  match btn.state with
  | .idle =>
      if currentState = .reset then ({ state := .pressed, debounceCounter := 0 }, 0) else (btn, 0)
  | .pressed =>
      if currentState = .reset then
        if btn.debounceCounter + 1 ≥ 2 then ({ state := .waitRelease, debounceCounter := 0 }, 1)
        else ({ btn with debounceCounter := btn.debounceCounter + 1 }, 0)
      else ({ btn with state := .idle }, 0)
  | .waitRelease =>
      if currentState = .set then
        if btn.debounceCounter + 1 ≥ 2 then ({ state := .idle, debounceCounter := 0 }, 0)
        else ({ btn with debounceCounter := btn.debounceCounter + 1 }, 0)
      else ({ btn with debounceCounter := 0 }, 0)

/-- The button after some samples. -/
def scanned (btn : Button) (samples : List BitAction) : Button :=
  samples.foldl (fun btn sample => (buttonScan btn sample).1) btn

/-- `Button_Scan` returns 1 at sample `k`. -/
def Triggers (btn : Button) (samples : List BitAction) (k : Nat) : Prop :=
  ∃ sample, samples[k]? = some sample ∧ (buttonScan (scanned btn (samples.take k)) sample).2 = 1

/-! ## The law of the button -/

/-- Sample `k` and the one before it are released. -/
def SecondSet (samples : List BitAction) (k : Nat) : Prop :=
  samples[k - 1]? = some .set ∧ samples[k]? = some .set

/-- Sample `r` is the first that is the second of two released ones, both after sample `t`. -/
def RearmsAfter (samples : List BitAction) (t r : Nat) : Prop :=
  t + 2 ≤ r ∧ SecondSet samples r ∧ ∀ earlier, t + 2 ≤ earlier → earlier < r →
    ¬ SecondSet samples earlier

/-- A re-arm point: the first such sample after one of the triggers.  The start of the samples
is one too. -/
def RearmPoint (btn : Button) (samples : List BitAction) (r : Nat) : Prop :=
  ∃ t, Triggers btn samples t ∧ RearmsAfter samples t r

/-- No trigger has occurred since the last re-arm point before sample `k`: each one before it
has a re-arm point behind it. -/
def Armed (btn : Button) (samples : List BitAction) (k : Nat) : Prop :=
  ∀ t < k, Triggers btn samples t → ∃ r, RearmPoint btn samples r ∧ t < r ∧ r < k

/-- Samples `k - 2`, `k - 1` and `k` are pressed. -/
def PressedThrice (samples : List BitAction) (k : Nat) : Prop :=
  2 ≤ k ∧ samples[k - 2]? = some .reset ∧ samples[k - 1]? = some .reset ∧
    samples[k]? = some .reset

/-- A button triggers at a pressed sample only. -/
theorem buttonScan_returns {btn : Button} {sample : BitAction}
    (returns : (buttonScan btn sample).2 = 1) : btn.state = .pressed ∧ sample = .reset := by
  obtain ⟨state, counter⟩ := btn
  simp only [buttonScan] at returns
  cases state with
  | idle => cases sample <;> simp at returns
  | pressed =>
      cases sample with
      | reset => exact ⟨rfl, rfl⟩
      | set => simp at returns
  | waitRelease => grind

theorem buttonScan_cases (btn : Button) (sample : BitAction) :
    (buttonScan btn sample).2 = 0 ∨ (buttonScan btn sample).2 = 1 := by
  obtain ⟨state, counter⟩ := btn
  simp only [buttonScan]
  grind

/-- The triggers of a run, the first sample apart. -/
theorem never_triggers_cons (start : Button) (sample : BitAction) (samples : List BitAction) :
    (∀ k, ¬ Triggers start (sample :: samples) k) ↔
      (buttonScan start sample).2 ≠ 1 ∧ ∀ k, ¬ Triggers (buttonScan start sample).1 samples k := by
  have now : Triggers start (sample :: samples) 0 ↔ (buttonScan start sample).2 = 1 := by
    simp [Triggers, scanned]
  have later : ∀ k, Triggers start (sample :: samples) (k + 1) ↔
      Triggers (buttonScan start sample).1 samples k := by
    intro k
    simp [Triggers, scanned]
  constructor
  · intro never
    exact ⟨mt now.mpr (never 0), fun k => mt (later k).mpr (never (k + 1))⟩
  · rintro ⟨quiet, never⟩ k
    cases k with
    | zero => exact mt now.mp quiet
    | succ k => exact mt (later k).mp (never k)

section Run

variable {start : Button} {samples : List BitAction}

theorem scanned_take_succ {n : Nat} {sample : BitAction} (read : samples[n]? = some sample) :
    scanned start (samples.take (n + 1)) =
      (buttonScan (scanned start (samples.take n)) sample).1 := by
  simp only [scanned]
  rw [List.take_add_one, read, List.foldl_append]
  rfl

theorem triggers_iff_scan {n : Nat} {sample : BitAction} (read : samples[n]? = some sample) :
    Triggers start samples n ↔
      (buttonScan (scanned start (samples.take n)) sample).2 = 1 := by
  simp only [Triggers]
  rw [read]
  simp

/-- No re-arm point is needed for a sample that did not trigger. -/
theorem Armed.succ {n : Nat} (armed : Armed start samples n) (quiet : ¬ Triggers start samples n) :
    Armed start samples (n + 1) := by
  intro t before triggered
  have other : t ≠ n := by
    rintro rfl
    exact quiet triggered
  obtain ⟨r, rearms, behind, here⟩ := armed t (by omega) triggered
  exact ⟨r, rearms, behind, by omega⟩

/-- Nothing has re-armed the button since its trigger at `t`. -/
structure Waiting (start : Button) (samples : List BitAction) (t n : Nat) : Prop where
  before : t < n
  triggered : Triggers start samples t
  notYet : ∀ r, t + 2 ≤ r → r < n → ¬ SecondSet samples r

/-- What the last samples were, and what has triggered, in every state of the button. -/
inductive Tracks (start : Button) (samples : List BitAction) (n : Nat) : Button → Prop where
  | idle {counter : UInt8} (armed : Armed start samples n)
      (released : n = 0 ∨ samples[n - 1]? = some .set) : Tracks start samples n ⟨.idle, counter⟩
  | pressedOnce (armed : Armed start samples n) (one : 1 ≤ n)
      (last : samples[n - 1]? = some .reset) (first : n = 1 ∨ samples[n - 2]? = some .set) :
      Tracks start samples n ⟨.pressed, 0⟩
  | pressedTwice (armed : Armed start samples n) (two : 2 ≤ n)
      (last : samples[n - 1]? = some .reset) (before : samples[n - 2]? = some .reset) :
      Tracks start samples n ⟨.pressed, 1⟩
  | held {t : Nat} (waiting : Waiting start samples t n)
      (last : samples[n - 1]? = some .reset) : Tracks start samples n ⟨.waitRelease, 0⟩
  | releasedOnce {t : Nat} (waiting : Waiting start samples t n) (after : t + 2 ≤ n)
      (last : samples[n - 1]? = some .set) : Tracks start samples n ⟨.waitRelease, 1⟩

/-- A sample that is pressed is no second released one. -/
theorem not_secondSet {n : Nat} (read : samples[n]? = some .reset) : ¬ SecondSet samples n := by
  rintro ⟨-, released⟩
  rw [read] at released
  cases released

theorem Waiting.succ {t n : Nat} (waiting : Waiting start samples t n)
    (still : t + 2 ≤ n → ¬ SecondSet samples n) : Waiting start samples t (n + 1) := by
  refine ⟨Nat.lt_succ_of_lt waiting.before, waiting.triggered, ?_⟩
  intro r behind before
  by_cases here : r = n
  · subst here
    exact still behind
  · exact waiting.notYet r behind (by omega)

/-- **One sample.** -/
theorem tracks_step {n : Nat} {sample : BitAction} (read : samples[n]? = some sample)
    (tracks : Tracks start samples n (scanned start (samples.take n))) :
    Tracks start samples (n + 1) (scanned start (samples.take (n + 1))) := by
  have quiet : Triggers start samples n ↔
      (buttonScan (scanned start (samples.take n)) sample).2 = 1 := triggers_iff_scan read
  rw [scanned_take_succ read]
  generalize scanned start (samples.take n) = btn at tracks quiet
  cases tracks with
  | idle armed released =>
      have armed' := armed.succ (quiet.not.mpr (by cases sample <;> simp [buttonScan]))
      cases sample with
      | set => exact .idle armed' (Or.inr read)
      | reset =>
          refine .pressedOnce armed' (Nat.le_add_left 1 n) read ?_
          obtain rfl | before := released
          · exact Or.inl rfl
          · exact Or.inr before
  | pressedOnce armed one last first =>
      have armed' := armed.succ (quiet.not.mpr (by cases sample <;> simp [buttonScan]))
      cases sample with
      | set => exact .idle armed' (Or.inr read)
      | reset => exact .pressedTwice armed' (Nat.succ_le_succ one) read last
  | pressedTwice armed two last before =>
      cases sample with
      | set => exact .idle (armed.succ (quiet.not.mpr (by simp [buttonScan]))) (Or.inr read)
      | reset =>
          refine .held ⟨Nat.lt_succ_self n, quiet.mpr rfl, ?_⟩ read
          intro r behind here
          omega
  | held waiting last =>
      cases sample with
      | reset => exact .held (waiting.succ fun _ => not_secondSet read) read
      | set =>
          -- the sample before this one is the first released one, if it is behind the trigger
          have first : ¬ SecondSet samples n := by
            rintro ⟨released, -⟩
            rw [last] at released
            cases released
          refine .releasedOnce (waiting.succ fun _ => first) ?_ read
          have := waiting.before
          omega
  | @releasedOnce t waiting after last =>
      cases sample with
      | reset => exact .held (waiting.succ fun _ => not_secondSet read) read
      | set =>
          have rearms : RearmPoint start samples n :=
            ⟨t, waiting.triggered, after, ⟨last, read⟩, waiting.notYet⟩
          refine .idle ?_ (Or.inr read)
          intro t' before triggered
          have other : t' ≠ n := by
            rintro rfl
            exact absurd (quiet.mp triggered) (by decide)
          exact ⟨n, rearms, by omega, Nat.lt_succ_self n⟩

/-- **A run of samples**, from a button that is idle. -/
theorem tracks (idle : start.state = .idle) {n : Nat} (read : n ≤ samples.length) :
    Tracks start samples n (scanned start (samples.take n)) := by
  induction n with
  | zero =>
      obtain ⟨state, counter⟩ := start
      obtain rfl : state = .idle := idle
      exact .idle (fun t before => absurd before (Nat.not_lt_zero t)) (Or.inl rfl)
  | succ n ih => exact tracks_step (List.getElem?_eq_getElem read) (ih (Nat.le_of_succ_le read))

/-- While the button waits to be released it is not armed. -/
theorem Waiting.not_armed {t n : Nat} (waiting : Waiting start samples t n) :
    ¬ Armed start samples n := by
  intro armed
  obtain ⟨r, ⟨t', -, -, second, -⟩, behind, here⟩ := armed t waiting.before waiting.triggered
  have pressed : samples[t]? = some .reset := by
    obtain ⟨sample, read, returns⟩ := waiting.triggered
    rw [read, (buttonScan_returns returns).2]
  have next : t + 2 ≤ r := by
    by_contra near
    obtain rfl : r = t + 1 := by omega
    have released := second.1
    rw [Nat.add_sub_cancel, pressed] at released
    cases released
  exact waiting.notYet r next here second

end Run

/-- A trigger comes at the third pressed sample in a row, from a button that is armed. -/
theorem Triggers.armed {start : Button} (idle : start.state = .idle) {samples : List BitAction}
    {k : Nat} (triggered : Triggers start samples k) :
    PressedThrice samples k ∧ Armed start samples k := by
  obtain ⟨sample, read, returns⟩ := triggered
  obtain ⟨state, rfl⟩ := buttonScan_returns returns
  have inside : k ≤ samples.length := Nat.le_of_lt (List.getElem?_eq_some_iff.mp read).1
  have tracked := tracks idle inside
  generalize scanned start (samples.take k) = btn at tracked returns state
  cases tracked with
  | idle => cases state
  | pressedOnce => exact absurd returns (by decide)
  | pressedTwice armed two last before => exact ⟨⟨two, before, last, read⟩, armed⟩
  | held => cases state
  | releasedOnce => cases state

/-- An armed button triggers at the third pressed sample in a row. -/
theorem PressedThrice.triggers {start : Button} (idle : start.state = .idle)
    {samples : List BitAction} {k : Nat} (pressed : PressedThrice samples k)
    (armed : Armed start samples k) : Triggers start samples k := by
  obtain ⟨two, before, last, read⟩ := pressed
  have inside : k ≤ samples.length := Nat.le_of_lt (List.getElem?_eq_some_iff.mp read).1
  rw [triggers_iff_scan read]
  have tracked := tracks idle inside
  generalize scanned start (samples.take k) = btn at tracked
  cases tracked with
  | idle _ released =>
      obtain rfl | released := released
      · exact absurd two (by decide)
      · rw [last] at released
        cases released
  | pressedOnce _ _ _ first =>
      obtain rfl | first := first
      · exact absurd two (by decide)
      · rw [before] at first
        cases first
  | pressedTwice => rfl
  | held waiting => exact absurd armed waiting.not_armed
  | releasedOnce waiting => exact absurd armed waiting.not_armed

/-- **The button triggers exactly at the third pressed sample in a row after it was armed.** -/
theorem triggers_iff {start : Button} (idle : start.state = .idle) (samples : List BitAction)
    (k : Nat) :
    Triggers start samples k ↔ PressedThrice samples k ∧ Armed start samples k :=
  ⟨Triggers.armed idle, fun both => both.1.triggers idle both.2⟩

/-- Three pressed samples of a button that has just been set up. -/
theorem triggers_iff_third :
    Triggers ⟨.idle, 0⟩ [.reset, .reset, .reset] 2 ↔
      PressedThrice [.reset, .reset, .reset] 2 ∧ Armed ⟨.idle, 0⟩ [.reset, .reset, .reset] 2 :=
  triggers_iff rfl [.reset, .reset, .reset] 2

/-- A button never triggers if it is never pressed for three samples in a row, and only then:
the first three trigger it. -/
theorem never_triggers_iff {start : Button} (idle : start.state = .idle)
    {samples : List BitAction} :
    (∀ k, ¬ Triggers start samples k) ↔ ∀ k, ¬ PressedThrice samples k := by
  constructor
  · intro never k pressed
    refine never k (pressed.triggers idle ?_)
    intro t _ triggered
    exact absurd triggered (never t)
  · intro never k triggered
    exact never k (triggered.armed idle).1

end EinkLiteOS.User
