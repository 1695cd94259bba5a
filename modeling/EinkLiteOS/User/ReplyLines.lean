/-
# User.ReplyLines -- what of the past a reply is read with

`WIFI_SendCMD` clears `WIFI_CMD_FLAG` and switches to `WIFI_RECV_CMD`, but `cmd_index` is
a static of the interrupt handler, and the line in `WIFI_CMD` stays as unfinished as it
was.  So a reply is read the same after two histories exactly when their unfinished lines
are alike: of one length, and the same to the search with every ending of a searched word
that still fits (`LinesAlike`).
-/
import EinkLiteOS.User.CommandLines

namespace EinkLiteOS.User

open EinkLiteOS.Theory
open EinkLiteOS.Device

set_option autoImplicit false

/-- The handler as far as `WIFI_SendCMD` can see it: the flag after every byte. -/
def flagReader : Transducer Uart UInt8 UInt8 where
  step u data :=
    let next := (wifiUsartIrqHandler u data).1
    (next, [next.cmdFlag])

/-- Every reply gives the same values of the flag after the two histories. -/
def SameVerdicts (history other : List UartEvent) : Prop :=
  ∀ reply : List UInt8,
    flagReader.trace (after (history ++ listening)) reply =
      flagReader.trace (after (other ++ listening)) reply

/-- The unfinished lines are of one length, and if there is room left for a newline then
they read the same with every ending that fits before it. -/
structure LinesAlike (u v : Uart) : Prop where
  index : u.cmdIndex = v.cmdIndex
  alike : u.cmdIndex.toNat < wifiCmdSize - 1 →
    ReadAlike (wifiCmdSize - 2 - u.cmdIndex.toNat) (unfinished u) (unfinished v)

/-! ## The flag after a reply -/

/-- The values of the flag are its values after every part of the reply. -/
theorem flagReader_trace_eq_iff (u v : Uart) :
    (∀ reply, flagReader.trace u reply = flagReader.trace v reply) ↔
      ∀ reply data, (usartIrq.final u (reply ++ [data])).cmdFlag =
        (usartIrq.final v (reply ++ [data])).cmdFlag := by
  constructor
  · intro same reply
    induction reply generalizing u v with
    | nil =>
        intro data
        exact (List.cons.inj (same [data])).1
    | cons b rest ih =>
        intro data
        exact ih _ _ (fun later => (List.cons.inj (same (b :: later))).2) data
  · intro same reply
    induction reply generalizing u v with
    | nil => rfl
    | cons b rest ih =>
        have now := same [] b
        have later := ih (wifiUsartIrqHandler u b).1 (wifiUsartIrqHandler v b).1
          fun reply data => same (b :: reply) data
        exact congrArg₂ List.cons now later

/-- After listening begins, the past is in the unfinished line only. -/
theorem after_listening (history : List UartEvent) :
    after (history ++ listening) =
      { after history with cmdFlag := 0, recvStop := wifiRecvCmd } := by
  rw [after_append]
  rfl

/-- The flag after a reply, as the line reader has it. -/
def replyVerdict (events : List (LineEvent UInt8)) : UInt8 :=
  ((events.filterMap replyFlag).getLast?).getD 0

theorem cmdFlag_listening (history : List UartEvent) (reply : List UInt8) :
    (usartIrq.final (after (history ++ listening)) reply).cmdFlag =
      replyVerdict ((lineReader newline 127).trace (unfinished (after history)) reply) := by
  have start : Collecting (after (history ++ listening)) (unfinished (after history)) := by
    refine ⟨?_, after_lineSound _, ?_⟩
    · rw [after_listening]
    · rw [after_listening]
      rfl
  rw [cmdFlag_final start, after_listening, replyVerdict]

/-! ## Alike lines -/

/-- `LinesAlike` of the lines themselves. -/
def HeldAlike (held other : List UInt8) : Prop :=
  held.length = other.length ∧ (held.length < 127 → ReadAlike (126 - held.length) held other)

theorem heldAlike_iff (history other : List UartEvent) :
    HeldAlike (unfinished (after history)) (unfinished (after other)) ↔
      LinesAlike (after history) (after other) := by
  have length := (after_lineSound history).length
  have length' := (after_lineSound other).length
  simp only [HeldAlike]
  rw [length, length', UInt16.toNat_inj]
  constructor
  · rintro ⟨index, alike⟩
    exact ⟨index, alike⟩
  · rintro ⟨index, alike⟩
    exact ⟨index, alike⟩

theorem lineVerdict_lineEnd (line : List UInt8) :
    lineVerdict (line ++ [newline]) = lineVerdict line := lineVerdict_newline line

/-- Alike lines stay alike, byte by byte, and their ends set the flag to the same. -/
theorem lineReader_alike :
    Corresponds (lineReader newline 127) (lineReader newline 127) HeldAlike
      (fun event event' => replyFlag event = replyFlag event') := by
  have step : ∀ (held other : List UInt8) (data : UInt8), HeldAlike held other →
      HeldAlike ((lineReader newline 127).step held data).1
        ((lineReader newline 127).step other data).1 ∧
      List.Forall₂ (fun event event' => replyFlag event = replyFlag event')
        ((lineReader newline 127).step held data).2
        ((lineReader newline 127).step other data).2 := by
    rintro held other data ⟨length, alike⟩
    have fresh : HeldAlike [] [] := ⟨rfl, fun _ _ _ _ => rfl⟩
    by_cases room : held.length < 127
    · have room' : other.length < 127 := length ▸ room
      by_cases ends : data = newline
      · subst ends
        rw [Lines.step_line room, Lines.step_line room']
        refine ⟨fresh, .cons ?_ .nil⟩
        have bare := alike room [] nil_mem_wordEndings (Nat.zero_le _)
        rw [List.append_nil, List.append_nil] at bare
        rw [replyFlag, replyFlag, lineVerdict_lineEnd, lineVerdict_lineEnd, bare]
      · rw [Lines.step_more room ends, Lines.step_more room' ends]
        refine ⟨⟨?_, ?_⟩, .nil⟩
        · rw [List.length_append, List.length_append, length]
        · -- the byte takes one from the room that the ending behind it has
          rw [List.length_append, List.length_singleton]
          intro more ending member fits
          rw [List.append_assoc, List.append_assoc]
          apply lineVerdict_append_eq (alike room)
          rw [List.length_append, List.length_singleton]
          omega
    · have full : ¬ other.length < 127 := length ▸ room
      rw [Lines.step_overflow room, Lines.step_overflow full]
      exact ⟨fresh, .cons rfl .nil⟩
  exact ⟨fun held other data alike => (step held other data alike).1,
    fun held other data alike => (step held other data alike).2⟩

/-- The same ends set the flag to the same value. -/
theorem replyVerdict_congr {events events' : List (LineEvent UInt8)}
    (same : List.Forall₂ (fun event event' => replyFlag event = replyFlag event') events events') :
    replyVerdict events = replyVerdict events' := by
  have values : events.filterMap replyFlag = events'.filterMap replyFlag := by
    induction same with
    | nil => rfl
    | cons first _ ih => rw [List.filterMap_cons, List.filterMap_cons, first, ih]
  rw [replyVerdict, values, replyVerdict]

/-! ## Different lines -/

/-- The shorter line has room for a byte that the longer one overflows with. -/
theorem replyVerdict_shorter {held other : List UInt8} (shorter : held.length < other.length)
    (bounded : other.length ≤ 127) :
    ∃ reply data, replyVerdict ((lineReader newline 127).trace held (reply ++ [data])) ≠
      replyVerdict ((lineReader newline 127).trace other (reply ++ [data])) := by
  refine ⟨List.replicate (127 - other.length) 0, 0, ?_⟩
  have noNewline : ∀ n, newline ∉ List.replicate n (0 : UInt8) := by
    intro n member
    exact absurd (List.eq_of_mem_replicate member) (by decide)
  have silent : (lineReader newline 127).trace held
      (List.replicate (127 - other.length) 0 ++ [0]) = [] := by
    rw [← List.replicate_succ']
    refine (Lines.run_more (noNewline _) ?_).2
    rw [List.length_replicate]
    omega
  rw [silent, Lines.trace_overflow (noNewline _) (by rw [List.length_replicate]; omega)]
  show (0 : UInt8) ≠ 2
  decide

theorem newline_notMem_ending {ending : List UInt8} (member : ending ∈ wordEndings) :
    newline ∉ ending := by
  revert ending
  decide

theorem verdict_getD_inj {line other : List UInt8}
    (same : (lineVerdict line).getD 0 = (lineVerdict other).getD 0) :
    lineVerdict line = lineVerdict other := by
  rcases lineVerdict_cases line with h | h | h
  all_goals rcases lineVerdict_cases other with h' | h' | h'
  all_goals rw [h, h'] at same ⊢
  all_goals revert same
  all_goals decide

/-- An ending and the newline tell lines apart that do not read alike. -/
theorem readAlike_of_replyVerdict {held other : List UInt8} (length : held.length = other.length)
    (same : ∀ reply data, replyVerdict ((lineReader newline 127).trace held (reply ++ [data])) =
      replyVerdict ((lineReader newline 127).trace other (reply ++ [data])))
    (room : held.length < 127) : ReadAlike (126 - held.length) held other := by
  intro ending member fits
  have noNewline := newline_notMem_ending member
  have read := same ending newline
  rw [Lines.trace_line noNewline (by omega), Lines.trace_line noNewline (by omega)] at read
  apply verdict_getD_inj
  have value : ∀ line : List UInt8,
      replyVerdict [.line (line ++ ending ++ [newline])] =
        (lineVerdict (line ++ ending)).getD 0 := by
    intro line
    simp only [replyVerdict]
    rw [List.filterMap_cons, replyFlag, lineVerdict_lineEnd]
    cases lineVerdict (line ++ ending) <;> rfl
  rw [← value, ← value, read]

/-! ## Two histories -/

/-- **A reply is read the same after two histories exactly when they leave alike lines
unfinished.** -/
theorem sameVerdicts_iff (history other : List UartEvent) :
    SameVerdicts history other ↔ LinesAlike (after history) (after other) := by
  simp only [SameVerdicts]
  rw [flagReader_trace_eq_iff, ← heldAlike_iff]
  simp only [cmdFlag_listening]
  constructor
  · intro same
    have bounded := (after_lineSound history).index
    have bounded' := (after_lineSound other).index
    rw [← (after_lineSound history).length] at bounded
    rw [← (after_lineSound other).length] at bounded'
    rcases Nat.lt_trichotomy (unfinished (after history)).length
      (unfinished (after other)).length with shorter | length | longer
    · obtain ⟨reply, data, differ⟩ := replyVerdict_shorter shorter bounded'
      exact absurd (same reply data) differ
    · exact ⟨length, readAlike_of_replyVerdict length same⟩
    · obtain ⟨reply, data, differ⟩ := replyVerdict_shorter longer bounded
      exact absurd (same reply data).symm differ
  · intro alike reply data
    exact replyVerdict_congr (lineReader_alike.trace alike _)

/-- Nothing received before, and an `ERROR` without the end of its line. -/
def cutOff : List UartEvent :=
  .recvStop wifiRecvCmd :: (ascii "ERROR").map .byte ++ [.recvStop wifiRecvData]

/-- The end of the line comes with the next command's reply, which is a success. -/
theorem not_sameVerdicts_cutOff : ¬ ∀ history other, SameVerdicts history other := by
  intro same
  have read := same [] cutOff (ascii "\r\nOK\r\n")
  revert read
  decide +kernel

end EinkLiteOS.User
