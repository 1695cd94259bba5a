/-
# Device.SendCmd -- the retry loop of one AT command

`WIFI_SendCMD` of `Device/ESP8266.c`, in the steps between which a reply line can come:
the interrupt handler sets `WIFI_CMD_FLAG` while the loop polls it.  A run is any order of
the loop's steps and the lines.  Every transmission opens an attempt, which records the
lines received until the next one, and which of them came before its time was out.

The loop clears the flag once, before the first transmission, and tests it for 1 and for 2
at different moments, so an attempt can be judged by a line of an earlier one
(`error_line_fails_three`).  `OwnReply` is when it is not, and `judged_by_reply` what
holds then.
-/
import EinkLiteOS.Device.Esp8266
import EinkLiteOS.Theory.Runs

namespace EinkLiteOS.Device

open EinkLiteOS.Theory

set_option autoImplicit false

/-- `MAX_RETRY` -/
def maxRetry : Nat := 3

/-- `TIMEOUT_MS` -/
def timeoutMs : Nat := 20000

/-- `CHECK_INTERVAL_MS` -/
def checkIntervalMs : Nat := 10

/-- Where `WIFI_SendCMD` is. -/
inductive SendPc where
  /-- `WIFI_CMD_FLAG = 0;` -/
  | clearFlag
  /-- `WIFI_RECVSTOP = WIFI_RECV_CMD;` -/
  | listen
  /-- `while(retryCount < MAX_RETRY)`, with the transmission and `waitTime = 0`. -/
  | whileRetry
  /-- `while(waitTime < TIMEOUT_MS)` -/
  | whileWait
  /-- `if(WIFI_CMD_FLAG == 1)` -/
  | checkOk
  /-- `if(WIFI_CMD_FLAG == 2)` -/
  | checkFail
  /-- `ESP8266_Delay(CHECK_INTERVAL_MS)`, until `waitTime` is counted up. -/
  | delay
  /-- `if(waitTime >= TIMEOUT_MS && WIFI_CMD_FLAG == 0)` -/
  | timeout
  /-- `retryCount++;` -/
  | retry
  /-- `ESP8266_Delay(100);` -/
  | pause
  | returned (result : WifiResult)
  deriving DecidableEq, Repr

/-- A reply line, and whether it came before the attempt's time was out. -/
structure Reply where
  line : List UInt8
  inTime : Bool
  deriving DecidableEq, Repr

/-- What is received after a transmission and before the next, in order. -/
abbrev Attempt := List Reply

namespace Attempt

/-- The first line that says anything. -/
def firstVerdict (attempt : Attempt) : Option Reply :=
  attempt.find? fun reply => (lineVerdict reply.line).isSome

/-- A verdict line has been received. -/
def Judged (attempt : Attempt) : Prop := attempt.firstVerdict ≠ none

/-- An `ERROR` or `FAIL` line has been received. -/
def Failed (attempt : Attempt) : Prop := ∃ reply ∈ attempt, lineVerdict reply.line = some 2

/-- The first verdict line is an `OK`, and it came in time. -/
def FirstOk (attempt : Attempt) : Prop :=
  ∃ reply ∈ attempt.firstVerdict, lineVerdict reply.line = some 1 ∧ reply.inTime = true

instance (attempt : Attempt) : Decidable attempt.Judged := inferInstanceAs (Decidable (_ ≠ _))

instance (attempt : Attempt) : Decidable attempt.Failed :=
  inferInstanceAs (Decidable (∃ reply ∈ attempt, _))

instance (attempt : Attempt) : Decidable attempt.FirstOk :=
  inferInstanceAs (Decidable (∃ reply ∈ attempt.firstVerdict, _))

end Attempt

/-- The variables of one call, with the attempts so far, the latest first. -/
structure SendCmd where
  pc : SendPc
  retryCount : Nat
  waitTime : Nat
  cmdFlag : UInt8
  recvStop : UInt8
  attempts : List Attempt
  deriving DecidableEq, Repr

/-- The call begins, with whatever is in the two globals. -/
def SendCmd.start (cmdFlag recvStop : UInt8) : SendCmd := ⟨.clearFlag, 0, 0, cmdFlag, recvStop, []⟩

/-- The loop goes on, or the interrupt handler has received a line. -/
inductive SendMove where
  | loop
  | line (symbols : List UInt8)
  deriving DecidableEq, Repr

namespace SendCmd

/-- The latest attempt records a reply. -/
def record (attempts : List Attempt) (reply : Reply) : List Attempt :=
  match attempts with
  | [] => []
  | latest :: earlier => (latest ++ [reply]) :: earlier

/-- The function returns and gives the received bytes back to the data mode. -/
def giveBack (s : SendCmd) (result : WifiResult) : SendCmd :=
  { s with pc := .returned result, recvStop := wifiRecvData }

/-- One step of the loop. -/
def loop (s : SendCmd) : Option SendCmd :=
  match s.pc with
  | .clearFlag => some { s with pc := .listen, cmdFlag := 0 }
  | .listen => some { s with pc := .whileRetry, recvStop := wifiRecvCmd }
  | .whileRetry =>
      if s.retryCount < maxRetry then
        some { s with pc := .whileWait, waitTime := 0, attempts := [] :: s.attempts }
      else some (s.giveBack .error)
  | .whileWait =>
      if s.waitTime < timeoutMs then some { s with pc := .checkOk }
      else some { s with pc := .timeout }
  | .checkOk =>
      if s.cmdFlag = 1 then some (s.giveBack .ok) else some { s with pc := .checkFail }
  | .checkFail =>
      if s.cmdFlag = 2 then some { s with pc := .timeout } else some { s with pc := .delay }
  | .delay => some { s with pc := .whileWait, waitTime := s.waitTime + checkIntervalMs }
  | .timeout =>
      if timeoutMs ≤ s.waitTime ∧ s.cmdFlag = 0 then some (s.giveBack .noResponse)
      else some { s with pc := .retry }
  | .retry =>
      if s.retryCount + 1 < maxRetry then
        some { s with pc := .pause, retryCount := s.retryCount + 1 }
      else some { s with pc := .whileRetry, retryCount := s.retryCount + 1 }
  | .pause => some { s with pc := .whileRetry }
  | .returned _ => none

/-- One move. -/
def move (s : SendCmd) : SendMove → Option SendCmd
  | .loop => s.loop
  | .line symbols =>
      if s.recvStop = wifiRecvCmd then
        some { s with
          cmdFlag := (lineVerdict symbols).getD s.cmdFlag
          attempts := record s.attempts ⟨symbols, decide (s.waitTime < timeoutMs)⟩ }
      else none

end SendCmd

/-- Each attempt is judged by its own reply. -/
structure JudgedByReply (s : SendCmd) : Prop where
  /-- A command is transmitted again only after a failure since its latest transmission. -/
  retried : ∀ attempt ∈ s.attempts.tail, attempt.Failed
  /-- A success that comes first and in time is the result. -/
  success : ∀ result, s.pc = .returned result → (∃ attempt ∈ s.attempts, attempt.FirstOk) →
    result = .ok
  /-- A failure is three failures. -/
  failure : s.pc = .returned .error →
    s.attempts.length = 3 ∧ ∀ attempt ∈ s.attempts, attempt.Failed

/-- The flag is not left over from an earlier attempt: where the poll finds a failure, a
verdict line has come since the latest transmission, and where the timeout test finds a
success, a failure has; and no failure overwrites a success that came first and in time. -/
def OwnReply (s : SendCmd) : SendMove → Prop
  | .loop =>
      (s.pc = .checkFail → s.cmdFlag = 2 → ∀ attempt ∈ s.attempts.head?, attempt.Judged) ∧
        (s.pc = .timeout → s.cmdFlag = 1 → ∀ attempt ∈ s.attempts.head?, attempt.Failed)
  | .line symbols =>
      lineVerdict symbols = some 2 → ∀ attempt ∈ s.attempts.head?, ¬ attempt.FirstOk

instance (s : SendCmd) : (label : SendMove) → Decidable (OwnReply s label)
  | .loop => inferInstanceAs (Decidable (_ ∧ _))
  | .line _ => inferInstanceAs (Decidable (_ → _))

/-! ## One more reply -/

namespace Attempt

variable {attempt : Attempt} {reply : Reply}

theorem Failed.judged (failed : attempt.Failed) : attempt.Judged := by
  obtain ⟨reply, member, two⟩ := failed
  intro none
  have silent := List.find?_eq_none.mp none reply member
  rw [two] at silent
  exact silent rfl

theorem Failed.append (failed : attempt.Failed) (reply : Reply) : (attempt ++ [reply]).Failed := by
  obtain ⟨before, member, two⟩ := failed
  exact ⟨before, List.mem_append_left _ member, two⟩

theorem failed_append : (attempt ++ [reply]).Failed ↔
    attempt.Failed ∨ lineVerdict reply.line = some 2 := by
  constructor
  · rintro ⟨other, member, two⟩
    rcases List.mem_append.mp member with before | now
    · exact Or.inl ⟨other, before, two⟩
    · obtain rfl := List.mem_singleton.mp now
      exact Or.inr two
  · rintro (failed | two)
    · exact failed.append reply
    · exact ⟨reply, List.mem_append_right _ (List.mem_singleton_self reply), two⟩

/-- Once there is a verdict, it stays the first one. -/
theorem firstVerdict_append (judged : attempt.Judged) :
    (attempt ++ [reply]).firstVerdict = attempt.firstVerdict := by
  obtain ⟨first, found⟩ := Option.ne_none_iff_exists'.mp judged
  rw [firstVerdict, List.find?_append, ← firstVerdict, found, Option.some_or]

/-- The first verdict is this one. -/
theorem firstVerdict_append_of_not (unjudged : ¬ attempt.Judged) :
    (attempt ++ [reply]).firstVerdict =
      if (lineVerdict reply.line).isSome then some reply else none := by
  have none : attempt.firstVerdict = none := not_not.mp unjudged
  rw [firstVerdict, List.find?_append, ← firstVerdict, none, Option.none_or, List.find?_cons]
  cases (lineVerdict reply.line).isSome <;> rfl

/-- An attempt that has failed, and not by a failure that overwrote a success. -/
def Closed (attempt : Attempt) : Prop := attempt.Failed ∧ ¬ attempt.FirstOk

theorem Closed.append (closed : attempt.Closed) (reply : Reply) : (attempt ++ [reply]).Closed := by
  refine ⟨closed.1.append reply, ?_⟩
  simp only [FirstOk]
  rw [firstVerdict_append closed.1.judged]
  exact closed.2

/-- An attempt that is being polled: a success that came first is still in the flag, and
a failure in the flag is its own if any verdict is. -/
structure Open (attempt : Attempt) (cmdFlag : UInt8) : Prop where
  success : attempt.FirstOk → cmdFlag = 1 ∧ ¬ attempt.Failed
  failure : cmdFlag = 2 → attempt.Judged → attempt.Failed

theorem open_nil (cmdFlag : UInt8) : Open [] cmdFlag := by
  constructor
  · rintro ⟨reply, first, -⟩
    cases first
  · intro _ judged
    exact absurd rfl judged

/-- A first success was there before, or it is this reply. -/
theorem FirstOk.of_append (ok : (attempt ++ [reply]).FirstOk) :
    attempt.FirstOk ∨ ¬ attempt.Judged ∧ lineVerdict reply.line = some 1 := by
  by_cases judged : attempt.Judged
  · simp only [FirstOk] at ok
    rw [firstVerdict_append judged] at ok
    exact Or.inl ok
  · obtain ⟨other, found, one, -⟩ := ok
    rw [firstVerdict_append_of_not judged] at found
    split at found
    · obtain rfl := Option.some.inj found
      exact Or.inr ⟨judged, one⟩
    · cases found

/-- A failure in the flag is this reply, or it was there before. -/
theorem failed_of_flag {cmdFlag : UInt8} (two : (lineVerdict reply.line).getD cmdFlag = 2)
    (before : cmdFlag = 2 → attempt.Failed) : (attempt ++ [reply]).Failed := by
  rw [failed_append]
  rcases lineVerdict_cases reply.line with none | one | failed
  · rw [none, Option.getD_none] at two
    exact Or.inl (before two)
  · rw [one, Option.getD_some] at two
    exact absurd two (by decide)
  · exact Or.inr failed

/-- **A reply keeps a polled attempt polled**, unless a failure follows a success. -/
theorem Open.append {cmdFlag : UInt8} (polled : attempt.Open cmdFlag)
    (allowed : lineVerdict reply.line = some 2 → ¬ attempt.FirstOk) :
    (attempt ++ [reply]).Open ((lineVerdict reply.line).getD cmdFlag) := by
  rcases lineVerdict_cases reply.line with none | one | two
  · rw [none, Option.getD_none]
    have sameFailed : (attempt ++ [reply]).Failed ↔ attempt.Failed := by
      rw [failed_append, none]
      simp only [reduceCtorEq, or_false]
    constructor
    · intro ok
      rw [sameFailed]
      rcases ok.of_append with before | ⟨-, now⟩
      · exact polled.success before
      · rw [none] at now
        cases now
    · intro flag judged
      rw [sameFailed]
      apply polled.failure flag
      intro unjudged
      rw [Judged, firstVerdict_append_of_not (not_not.mpr unjudged), none] at judged
      exact judged rfl
  · rw [one, Option.getD_some]
    constructor
    · intro ok
      refine ⟨rfl, ?_⟩
      rw [failed_append, one]
      rintro (failed | two)
      · rcases ok.of_append with before | ⟨unjudged, -⟩
        · exact (polled.success before).2 failed
        · exact unjudged failed.judged
      · exact absurd two (by decide)
    · intro flag
      exact absurd flag (by decide)
  · rw [two, Option.getD_some]
    constructor
    · intro ok
      rcases ok.of_append with before | ⟨-, now⟩
      · exact absurd before (allowed two)
      · rw [two] at now
        exact absurd now (by decide)
    · intro _ _
      rw [failed_append]
      exact Or.inr two

end Attempt

/-! ## What every allowed step keeps -/

/-- What is known of the latest attempt where its flag is polled. -/
def Polled (s : SendCmd) (attempt : Attempt) : Prop :=
  match s.pc with
  | .whileWait => s.cmdFlag = 2 → attempt.Failed ∨ s.waitTime = 0
  | .delay => s.cmdFlag = 2 → attempt.Failed
  | .timeout => s.cmdFlag = 2 ∨ s.waitTime < timeoutMs → attempt.Failed
  | _ => True

/-- The invariant of the loop. -/
inductive Loop : SendCmd → Prop where
  /-- Nothing is transmitted yet. -/
  | before {s : SendCmd} (pc : s.pc = .clearFlag ∨ s.pc = .listen) (count : s.retryCount = 0)
      (attempts : s.attempts = [])
      (flag : s.pc = .listen → s.cmdFlag = 0 ∨ s.cmdFlag = 1 ∨ s.cmdFlag = 2) : Loop s
  /-- The latest attempt is polled. -/
  | polling {s : SendCmd} {latest : Attempt} {earlier : List Attempt}
      (pc : s.pc ∈ [.whileWait, .checkOk, .checkFail, .delay, .timeout])
      (attempts : s.attempts = latest :: earlier)
      (count : earlier.length = s.retryCount) (few : s.retryCount < maxRetry)
      (closed : ∀ attempt ∈ earlier, attempt.Closed)
      (flag : s.cmdFlag = 0 ∨ s.cmdFlag = 1 ∨ s.cmdFlag = 2)
      (latestOpen : latest.Open s.cmdFlag) (polled : Polled s latest) : Loop s
  /-- The latest attempt has failed. -/
  | between {s : SendCmd} (pc : s.pc ∈ [.retry, .pause, .whileRetry])
      (count : s.attempts.length = s.retryCount + if s.pc = .retry then 1 else 0)
      (few : s.attempts.length ≤ maxRetry)
      (closed : ∀ attempt ∈ s.attempts, attempt.Closed)
      (flag : s.cmdFlag = 0 ∨ s.cmdFlag = 1 ∨ s.cmdFlag = 2) : Loop s
  /-- The call is over. -/
  | finished {s : SendCmd} {result : WifiResult} (pc : s.pc = .returned result)
      (stopped : s.recvStop = wifiRecvData) (judged : JudgedByReply s) : Loop s

/-- **In every state the invariant allows, each attempt is judged by its own reply.** -/
theorem Loop.judgedByReply {s : SendCmd} (kept : Loop s) : JudgedByReply s := by
  cases kept with
  | before pc _ attempts _ =>
      refine ⟨?_, ?_, ?_⟩
      · rw [attempts]
        exact nofun
      · intro result returned
        rcases pc with pc | pc <;> rw [pc] at returned <;> cases returned
      · intro returned
        rcases pc with pc | pc <;> rw [pc] at returned <;> cases returned
  | polling pc attempts _ _ closed _ _ _ =>
      have running : ∀ result, s.pc ≠ .returned result := by
        intro result returned
        rw [returned] at pc
        simp at pc
      refine ⟨?_, ?_, ?_⟩
      · rw [attempts]
        exact fun attempt member => (closed attempt member).1
      · exact fun result returned => absurd returned (running result)
      · exact fun returned => absurd returned (running .error)
  | between pc _ _ closed _ =>
      have running : ∀ result, s.pc ≠ .returned result := by
        intro result returned
        rw [returned] at pc
        simp at pc
      refine ⟨?_, ?_, ?_⟩
      · exact fun attempt member => (closed attempt (List.mem_of_mem_tail member)).1
      · exact fun result returned => absurd returned (running result)
      · exact fun returned => absurd returned (running .error)
  | finished _ _ judged => exact judged

section Step

variable {s t : SendCmd}

theorem flag_range {cmdFlag : UInt8} (flag : cmdFlag = 0 ∨ cmdFlag = 1 ∨ cmdFlag = 2)
    (line : List UInt8) : (lineVerdict line).getD cmdFlag = 0 ∨
      (lineVerdict line).getD cmdFlag = 1 ∨ (lineVerdict line).getD cmdFlag = 2 := by
  rcases lineVerdict_cases line with none | one | two
  · rw [none]
    exact flag
  · rw [one]
    exact Or.inr (Or.inl rfl)
  · rw [two]
    exact Or.inr (Or.inr rfl)

/-- Where the flag is polled, a line leaves what is known of the latest attempt. -/
theorem Polled.line {latest : Attempt} (polled : Polled s latest) (reply : Reply)
    (attempts : List Attempt) :
    Polled { s with cmdFlag := (lineVerdict reply.line).getD s.cmdFlag, attempts := attempts }
      (latest ++ [reply]) := by
  obtain ⟨pc, retryCount, waitTime, cmdFlag, recvStop, _⟩ := s
  cases pc with
  | whileWait =>
      intro two
      by_cases first : waitTime = 0
      · exact Or.inr first
      · exact Or.inl (Attempt.failed_of_flag two fun before => (polled before).resolve_right first)
  | delay => exact fun two => Attempt.failed_of_flag two polled
  | timeout =>
      rintro (two | early)
      · exact Attempt.failed_of_flag two fun before => polled (Or.inl before)
      · exact (polled (Or.inr early)).append _
  | _ => exact trivial

theorem length_record (attempts : List Attempt) (reply : Reply) :
    (SendCmd.record attempts reply).length = attempts.length := by
  cases attempts with
  | nil => rfl
  | cons latest earlier => rfl

/-- A line that comes late finds its attempt as closed as it was. -/
theorem closed_record {attempts : List Attempt} (closed : ∀ attempt ∈ attempts, attempt.Closed)
    (reply : Reply) : ∀ attempt ∈ SendCmd.record attempts reply, attempt.Closed := by
  cases attempts with
  | nil => exact nofun
  | cons latest earlier =>
      intro attempt member
      rcases List.mem_cons.mp member with rfl | later
      · exact (closed latest List.mem_cons_self).append reply
      · exact closed attempt (List.mem_cons_of_mem latest later)

/-- **A line keeps the invariant.** -/
theorem line_kept {symbols : List UInt8} (kept : Loop s) (allowed : OwnReply s (.line symbols))
    (enabled : s.move (.line symbols) = some t) : Loop t := by
  unfold SendCmd.move at enabled
  simp only at enabled
  split at enabled
  case isFalse => cases enabled
  case isTrue listening =>
    obtain rfl := Option.some.inj enabled
    cases kept with
    | before pc count attempts flag =>
        refine .before pc count ?_ ?_
        · show SendCmd.record s.attempts _ = []
          rw [attempts]
          rfl
        · exact fun begun => flag_range (flag begun) symbols
    | polling pc attempts count few closed flag latestOpen polled =>
        rename_i latest earlier
        have noOverwrite : lineVerdict symbols = some 2 → ¬ latest.FirstOk := by
          intro two
          apply allowed two
          rw [attempts]
          rfl
        have recorded : SendCmd.record s.attempts ⟨symbols, decide (s.waitTime < timeoutMs)⟩ =
            (latest ++ [⟨symbols, decide (s.waitTime < timeoutMs)⟩]) :: earlier := by
          rw [attempts]
          rfl
        have kept := polled.line ⟨symbols, decide (s.waitTime < timeoutMs)⟩
        exact .polling pc recorded count few closed (flag_range flag symbols)
          (latestOpen.append noOverwrite) (kept _)
    | between pc count few closed flag =>
        refine .between pc ?_ ?_ (closed_record closed _) (flag_range flag symbols)
        · show (SendCmd.record s.attempts _).length = _
          rw [length_record, count]
        · show (SendCmd.record s.attempts _).length ≤ maxRetry
          rw [length_record]
          exact few
    | finished pc stopped judged =>
        rw [stopped] at listening
        exact absurd listening (by decide)

/-- The call returns from an attempt that is polled. -/
theorem finished_polling {result : WifiResult} {latest : Attempt} {earlier : List Attempt}
    (attempts : s.attempts = latest :: earlier) (closed : ∀ attempt ∈ earlier, attempt.Closed)
    (notError : result ≠ .error) (success : latest.FirstOk → result = .ok) :
    Loop (s.giveBack result) := by
  have pc : (s.giveBack result).pc = .returned result := rfl
  refine .finished pc rfl ⟨?_, ?_, ?_⟩
  · show ∀ attempt ∈ s.attempts.tail, attempt.Failed
    rw [attempts]
    exact fun attempt member => (closed attempt member).1
  · rintro result' returned ⟨attempt, member, ok⟩
    obtain rfl := SendPc.returned.inj returned
    change attempt ∈ s.attempts at member
    rw [attempts] at member
    rcases List.mem_cons.mp member with rfl | before
    · exact success ok
    · exact absurd ok (closed attempt before).2
  · intro returned
    exact absurd (SendPc.returned.inj returned) notError

/-- The steps of the loop around the transmissions. -/
theorem between_kept (pc : s.pc ∈ [.retry, .pause, .whileRetry])
    (count : s.attempts.length = s.retryCount + if s.pc = .retry then 1 else 0)
    (few : s.attempts.length ≤ maxRetry) (closed : ∀ attempt ∈ s.attempts, attempt.Closed)
    (flag : s.cmdFlag = 0 ∨ s.cmdFlag = 1 ∨ s.cmdFlag = 2) (enabled : s.loop = some t) :
    Loop t := by
  simp only [List.mem_cons, List.not_mem_nil, or_false] at pc
  rcases pc with pc | pc | pc
  all_goals simp only [SendCmd.loop, pc] at enabled
  · rw [pc, if_pos rfl] at count
    split at enabled
    · obtain rfl := Option.some.inj enabled
      exact .between (by simp) (by simpa using count) few closed flag
    · obtain rfl := Option.some.inj enabled
      exact .between (by simp) (by simpa using count) few closed flag
  · rw [pc, if_neg (by decide)] at count
    obtain rfl := Option.some.inj enabled
    exact .between (by simp) (by simpa using count) few closed flag
  · rw [pc, if_neg (by decide), Nat.add_zero] at count
    split at enabled
    case isTrue again =>
      obtain rfl := Option.some.inj enabled
      exact .polling (by simp) rfl count again closed flag (Attempt.open_nil _)
        fun _ => Or.inr rfl
    case isFalse last =>
      obtain rfl := Option.some.inj enabled
      have pc' : (s.giveBack .error).pc = .returned .error := rfl
      refine .finished pc' rfl ⟨?_, ?_, ?_⟩
      · exact fun attempt member => (closed attempt (List.mem_of_mem_tail member)).1
      · rintro result - ⟨attempt, member, ok⟩
        exact absurd ok (closed attempt member).2
      · intro _
        simp only [maxRetry] at few last
        refine ⟨?_, fun attempt member => (closed attempt member).1⟩
        show s.attempts.length = 3
        omega

/-- The steps before the first transmission. -/
theorem before_kept (pc : s.pc = .clearFlag ∨ s.pc = .listen) (count : s.retryCount = 0)
    (attempts : s.attempts = [])
    (flag : s.pc = .listen → s.cmdFlag = 0 ∨ s.cmdFlag = 1 ∨ s.cmdFlag = 2)
    (enabled : s.loop = some t) : Loop t := by
  rcases pc with pc | pc
  all_goals simp only [SendCmd.loop, pc] at enabled
  all_goals obtain rfl := Option.some.inj enabled
  · exact .before (Or.inr rfl) count attempts fun _ => Or.inl rfl
  · refine .between (by simp) ?_ ?_ ?_ (flag pc)
    · show s.attempts.length = s.retryCount + 0
      rw [attempts, count]
      rfl
    · show s.attempts.length ≤ maxRetry
      rw [attempts]
      exact Nat.zero_le _
    · show ∀ attempt ∈ s.attempts, attempt.Closed
      rw [attempts]
      exact nofun

/-- A polled attempt that has failed is given up. -/
theorem retry_polling {latest : Attempt} {earlier : List Attempt}
    (attempts : s.attempts = latest :: earlier) (count : earlier.length = s.retryCount)
    (few : s.retryCount < maxRetry) (closed : ∀ attempt ∈ earlier, attempt.Closed)
    (flag : s.cmdFlag = 0 ∨ s.cmdFlag = 1 ∨ s.cmdFlag = 2) (latestOpen : latest.Open s.cmdFlag)
    (failed : latest.Failed) : Loop { s with pc := .retry } := by
  refine .between (by simp) ?_ ?_ ?_ flag
  · show s.attempts.length = s.retryCount + 1
    rw [attempts, List.length_cons, count]
  · show s.attempts.length ≤ maxRetry
    rw [attempts, List.length_cons, count]
    exact few
  · show ∀ attempt ∈ s.attempts, attempt.Closed
    rw [attempts]
    intro attempt member
    rcases List.mem_cons.mp member with rfl | before
    · exact ⟨failed, fun ok => (latestOpen.success ok).2 failed⟩
    · exact closed attempt before

/-- The steps that poll an attempt. -/
theorem polling_kept {latest : Attempt} {earlier : List Attempt}
    (pc : s.pc ∈ [.whileWait, .checkOk, .checkFail, .delay, .timeout])
    (attempts : s.attempts = latest :: earlier) (count : earlier.length = s.retryCount)
    (few : s.retryCount < maxRetry) (closed : ∀ attempt ∈ earlier, attempt.Closed)
    (flag : s.cmdFlag = 0 ∨ s.cmdFlag = 1 ∨ s.cmdFlag = 2) (latestOpen : latest.Open s.cmdFlag)
    (polled : Polled s latest) (allowed : OwnReply s .loop) (enabled : s.loop = some t) :
    Loop t := by
  obtain ⟨own, late⟩ := allowed
  rw [attempts] at own late
  simp only [List.mem_cons, List.not_mem_nil, or_false] at pc
  rcases pc with pc | pc | pc | pc | pc
  all_goals simp only [SendCmd.loop, pc] at enabled
  all_goals simp only [Polled, pc] at polled
  · split at enabled
    case isTrue =>
      obtain rfl := Option.some.inj enabled
      exact .polling (by simp) attempts count few closed flag latestOpen trivial
    case isFalse out =>
      -- the time is out, so this is not the first poll
      obtain rfl := Option.some.inj enabled
      refine .polling (by simp) attempts count few closed flag latestOpen ?_
      rintro (two | early)
      · rcases polled two with failed | first
        · exact failed
        · rw [first] at out
          exact absurd (by decide) out
      · exact absurd early out
  · split at enabled
    case isTrue =>
      obtain rfl := Option.some.inj enabled
      exact finished_polling attempts closed (by decide) fun _ => rfl
    case isFalse =>
      obtain rfl := Option.some.inj enabled
      exact .polling (by simp) attempts count few closed flag latestOpen trivial
  · split at enabled
    case isTrue two =>
      obtain rfl := Option.some.inj enabled
      refine .polling (by simp) attempts count few closed flag latestOpen ?_
      exact fun _ => latestOpen.failure two (own pc two latest rfl)
    case isFalse notTwo =>
      obtain rfl := Option.some.inj enabled
      refine .polling (by simp) attempts count few closed flag latestOpen ?_
      exact fun two => absurd two notTwo
  · obtain rfl := Option.some.inj enabled
    refine .polling (by simp) attempts count few closed flag latestOpen ?_
    exact fun two => Or.inl (polled two)
  · split at enabled
    case isTrue out =>
      obtain rfl := Option.some.inj enabled
      refine finished_polling attempts closed (by decide) ?_
      intro ok
      have one := (latestOpen.success ok).1
      rw [out.2] at one
      exact absurd one (by decide)
    case isFalse notOut =>
      obtain rfl := Option.some.inj enabled
      apply retry_polling attempts count few closed flag latestOpen
      by_cases early : s.waitTime < timeoutMs
      · exact polled (Or.inr early)
      · rcases flag with zero | one | two
        · exact absurd (And.intro (Nat.le_of_not_lt early) zero) notOut
        · exact late pc one latest rfl
        · exact polled (Or.inl two)

/-- **A step of the loop keeps the invariant.** -/
theorem loop_kept (kept : Loop s) (allowed : OwnReply s .loop) (enabled : s.loop = some t) :
    Loop t := by
  cases kept with
  | before pc count attempts flag => exact before_kept pc count attempts flag enabled
  | polling pc attempts count few closed flag latestOpen polled =>
      exact polling_kept pc attempts count few closed flag latestOpen polled allowed enabled
  | between pc count few closed flag => exact between_kept pc count few closed flag enabled
  | finished pc _ _ =>
      simp only [SendCmd.loop, pc] at enabled
      cases enabled

theorem move_kept {label : SendMove} (kept : Loop s) (allowed : OwnReply s label)
    (enabled : s.move label = some t) : Loop t := by
  cases label with
  | loop => exact loop_kept kept allowed enabled
  | line symbols => exact line_kept kept allowed enabled

end Step

/-- **Each attempt is judged by its own reply**, in every run whose steps find the flag set
by it. -/
theorem judged_by_reply (cmdFlag recvStop : UInt8) (moves : List SendMove) (s : SendCmd)
    (run : Run SendCmd.move OwnReply (.start cmdFlag recvStop) moves s) : JudgedByReply s := by
  have start : Loop (.start cmdFlag recvStop) := .before (Or.inl rfl) rfl rfl nofun
  exact (run.invariant (I := Loop) (fun _ _ _ => move_kept) start).judgedByReply

/-- A failure, and then a success for the second transmission. -/
def failThenOk : List SendMove :=
  List.replicate 3 .loop ++ .line (ascii "ERROR\r\n") :: List.replicate 7 .loop ++
    .line (ascii "OK\r\n") :: List.replicate 2 .loop

def answered : SendCmd :=
  ⟨.returned .ok, 1, 0, 1, wifiRecvData,
    [[⟨ascii "OK\r\n", true⟩], [⟨ascii "ERROR\r\n", true⟩]]⟩

theorem judged_by_reply_answered : JudgedByReply answered :=
  judged_by_reply 0 0 failThenOk answered (run_of_perform (by decide +kernel))

/-- One `ERROR` line after the first transmission, and no line after that. -/
def oneErrorLine : List SendMove :=
  List.replicate 3 .loop ++ .line (ascii "ERROR\r\n") :: List.replicate 20 .loop

def failedThree : SendCmd :=
  ⟨.returned .error, 3, 0, 2, wifiRecvData, [[], [], [⟨ascii "ERROR\r\n", true⟩]]⟩

/-- One line fails all three transmissions: the flag is not cleared before the second. -/
theorem error_line_fails_three : ¬ ∀ (cmdFlag recvStop : UInt8) (moves : List SendMove)
    (s : SendCmd), Run SendCmd.move unguarded (.start cmdFlag recvStop) moves s →
      JudgedByReply s := by
  intro all
  have run : Run SendCmd.move unguarded (.start 0 0) oneErrorLine failedThree :=
    run_of_perform (by decide +kernel)
  have failed := (all 0 0 oneErrorLine failedThree run).failure rfl
  exact absurd (failed.2 [] List.mem_cons_self) (by decide)

/-! ## The call returns -/

/-- A bound on the steps the loop still takes. -/
def remaining (s : SendCmd) : Nat :=
  let attempts := (maxRetry - s.retryCount) * 20040
  match s.pc with
  | .clearFlag => maxRetry * 20040 + 3
  | .listen => maxRetry * 20040 + 2
  | .whileRetry => attempts + 1
  | .whileWait => attempts - 10 - s.waitTime
  | .checkOk => attempts - 11 - s.waitTime
  | .checkFail => attempts - 12 - s.waitTime
  | .delay => attempts - 13 - s.waitTime
  | .timeout => attempts - 20036
  | .retry => attempts - 20037
  | .pause => attempts + 2
  | .returned _ => 0

/-- The counters are in their ranges. -/
def Timely (s : SendCmd) : Prop :=
  match s.pc with
  | .whileWait => s.retryCount < maxRetry ∧ s.waitTime < timeoutMs + checkIntervalMs
  | .checkOk | .checkFail | .delay => s.retryCount < maxRetry ∧ s.waitTime < timeoutMs
  | .timeout | .retry => s.retryCount < maxRetry
  | _ => True

/-- Every step of the loop brings the call nearer to its end. -/
theorem loop_remaining {s t : SendCmd} (timely : Timely s) (enabled : s.loop = some t) :
    Timely t ∧ remaining t < remaining s := by
  obtain ⟨pc, retryCount, waitTime, cmdFlag, recvStop, attempts⟩ := s
  cases pc with
  | clearFlag | listen | pause | delay =>
      simp only [SendCmd.loop, Option.some.injEq] at enabled
      subst enabled
      simp only [Timely, remaining, maxRetry, timeoutMs, checkIntervalMs, true_and] at timely ⊢
      omega
  | whileRetry | whileWait | checkOk | checkFail | timeout | retry =>
      simp only [SendCmd.loop] at enabled
      split at enabled
      all_goals obtain rfl := Option.some.inj enabled
      all_goals simp only [SendCmd.giveBack, Timely, remaining, maxRetry, timeoutMs,
        checkIntervalMs, true_and] at *
      all_goals omega
  | returned result => cases enabled

/-- A line leaves the loop where it is. -/
theorem line_remaining {s t : SendCmd} {symbols : List UInt8} (timely : Timely s)
    (enabled : s.move (.line symbols) = some t) : Timely t ∧ remaining t = remaining s := by
  unfold SendCmd.move at enabled
  simp only at enabled
  split at enabled
  · obtain rfl := Option.some.inj enabled
    exact ⟨timely, rfl⟩
  · cases enabled

/-- **The call returns**, whatever lines come: until then the loop can go on, and it goes
on for boundedly many steps. -/
theorem sendCmd_returns {cmdFlag recvStop : UInt8} {moves : List SendMove} {s : SendCmd}
    (run : Run SendCmd.move unguarded (.start cmdFlag recvStop) moves s) :
    moves.count .loop ≤ 60123 ∧ ((∃ result, s.pc = .returned result) ∨ (s.move .loop).isSome) := by
  have counted : ∀ {r s : SendCmd} {moves : List SendMove}, Run SendCmd.move unguarded r moves s →
      Timely r → moves.count .loop + remaining s ≤ remaining r := by
    intro r s moves run
    induction run with
    | done s =>
        intro _
        rw [List.count_nil, Nat.zero_add]
    | @move r next s label moves _ enabled rest ih =>
        intro timely
        cases label with
        | loop =>
            obtain ⟨timely', less⟩ := loop_remaining timely enabled
            have := ih timely'
            rw [List.count_cons_self]
            omega
        | line symbols =>
            obtain ⟨timely', same⟩ := line_remaining timely enabled
            have := ih timely'
            rw [List.count_cons_of_ne (by exact nofun)]
            omega
  have bound := counted run trivial
  refine ⟨?_, ?_⟩
  · have total : remaining (.start cmdFlag recvStop) = 60123 := rfl
    omega
  · obtain ⟨pc, retryCount, waitTime, cmdFlag, recvStop, attempts⟩ := s
    cases pc with
    | clearFlag | listen | pause | delay => exact Or.inr rfl
    | whileRetry | whileWait | checkOk | checkFail | timeout | retry =>
        right
        simp only [SendCmd.move, SendCmd.loop]
        split <;> rfl
    | returned result => exact Or.inl ⟨result, rfl⟩

/-- The run in which the second transmission succeeds. -/
theorem sendCmd_returns_answered : failThenOk.count .loop ≤ 60123 := by
  have run : Run SendCmd.move unguarded (.start 0 0) failThenOk answered :=
    run_of_perform (by decide +kernel)
  exact (sendCmd_returns run).1

end EinkLiteOS.Device
