/-
# User.CommandLines -- the reply lines the interrupt collects

In `WIFI_RECV_CMD` the interrupt handler is the line reader of `Theory.Lines`: a line ends
at the newline, `WIFI_CMD_ReturnCheck` reads it NUL-terminated in `WIFI_CMD`, and with 127
bytes stored there is no room for another.  `commandReader_corresponds` is the simulation;
`collects_lines` reads off it what the buffer, the index and the flag are after any stream.
-/
import EinkLiteOS.Theory.Lines
import EinkLiteOS.User.UsartIrq

namespace EinkLiteOS.User

open EinkLiteOS.Theory
open EinkLiteOS.Device

set_option autoImplicit false

/-- How the handler ends a line: it has it checked, in this buffer and terminated at
`index`, or there is no room for it. -/
inductive LineEnd where
  | returnCheck (index : Nat) (wifiCmd : Vector UInt8 wifiCmdSize)
  | overflow
  deriving DecidableEq, Repr

/-- The line ends among some effects. -/
def lineEnds (effects : List IrqEffect) : List LineEnd :=
  effects.filterMap fun
    | .returnCheck index wifiCmd => some (.returnCheck index wifiCmd)
    | .overflow => some .overflow
    | _ => none

/-- The handler as far as it ends lines. -/
def commandReader : Transducer Uart UInt8 LineEnd where
  step u data :=
    let (next, effects) := wifiUsartIrqHandler u data
    (next, lineEnds effects)

theorem commandReader_eq (u : Uart) (data : UInt8) :
    commandReader.step u data =
      ((wifiUsartIrqHandler u data).1, lineEnds (wifiUsartIrqHandler u data).2) := rfl

theorem commandReader_final (u : Uart) (stream : List UInt8) :
    commandReader.final u stream = usartIrq.final u stream := by
  induction stream generalizing u with
  | nil => rfl
  | cons b rest ih => exact ih _

/-- The handler ends a line as the line reader does: the checked buffer holds the line up
to `index`, and a NUL there. -/
def Ends : LineEnd → LineEvent UInt8 → Prop
  | .returnCheck index wifiCmd, .line symbols =>
      symbols.length = index ∧ wifiCmd.toList.take index = symbols ∧ wifiCmd[index]? = some 0
  | .overflow, .overflow _ => True
  | _, _ => False

/-- The value a line's end sets `WIFI_CMD_FLAG` to, if it sets it. -/
def replyFlag : LineEvent UInt8 → Option UInt8
  | .line symbols => lineVerdict symbols
  | .overflow _ => some 2

/-- `WIFI_CMD_FLAG` once the handler has ended a line. -/
def flagAfter (cmdFlag : UInt8) : LineEnd → UInt8
  | .returnCheck _ wifiCmd => wifiCmdReturnCheck wifiCmd cmdFlag
  | .overflow => 2

/-! ## The simulation -/

/-- In command mode the unfinished line in the buffer is what the line reader holds. -/
structure Collecting (u : Uart) (held : List UInt8) : Prop where
  mode : u.recvStop = wifiRecvCmd
  sound : LineSound u
  held : unfinished u = held

namespace Collecting

variable {u : Uart} {held : List UInt8}

theorem length (collecting : Collecting u held) : held.length = u.cmdIndex.toNat := by
  rw [← collecting.held, collecting.sound.length]

theorem handler (collecting : Collecting u held) (data : UInt8) :
    wifiUsartIrqHandler u data = receiveCmd u data := by
  simp only [wifiUsartIrqHandler]
  rw [collecting.mode, if_neg (by decide), if_pos rfl]

theorem line (collecting : Collecting u held) : Lines.Unfinished newline 127 held := by
  obtain ⟨-, ⟨index, line⟩, rfl⟩ := collecting
  refine ⟨line, ?_⟩
  rw [LineSound.length ⟨index, line⟩]
  exact index

end Collecting

/-- The search stops at the terminator behind the line. -/
theorem lineVerdict_ended {line : List UInt8} {wifiCmd : Vector UInt8 wifiCmdSize}
    (holds : wifiCmd.toList.take line.length = line) (nul : wifiCmd[line.length]? = some 0) :
    lineVerdict wifiCmd.toList = lineVerdict line := by
  obtain ⟨inside, last⟩ := Vector.getElem?_eq_some_iff.mp nul
  have length : line.length < wifiCmd.toList.length := by rwa [Vector.length_toList]
  have tail : wifiCmd.toList = line ++ 0 :: wifiCmd.toList.drop (line.length + 1) := by
    conv => lhs; rw [← List.take_append_drop line.length wifiCmd.toList, holds]
    rw [List.drop_eq_getElem_cons length, Vector.getElem_toList, last]
  rw [tail, lineVerdict_nul]

/-- **One byte in command mode is one step of the line reader.** -/
theorem commandReader_step {u : Uart} {held : List UInt8} (collecting : Collecting u held)
    (data : UInt8) :
    Collecting (commandReader.step u data).1 ((lineReader newline 127).step held data).1 ∧
      List.Forall₂ Ends (commandReader.step u data).2
        ((lineReader newline 127).step held data).2 := by
  have length := collecting.length
  rw [commandReader_eq, collecting.handler]
  have sound : LineSound (receiveCmd u data).1 := receiveCmd_sound collecting.sound
  by_cases inside : u.cmdIndex.toNat < wifiCmdSize - 1
  · have room : held.length < 127 := by
      rw [length]
      exact inside
    by_cases ends : data = newline
    · subst ends
      rw [receiveCmd_newline inside] at sound ⊢
      rw [Lines.step_line room]
      refine ⟨⟨collecting.mode, sound, rfl⟩, .cons ?_ .nil⟩
      obtain ⟨line, nul⟩ :
          (endedBuffer u newline).toList.take (u.cmdIndex.toNat + 1) = unfinished u ++ [newline] ∧
            (endedBuffer u newline)[u.cmdIndex.toNat + 1]? = some 0 := endedBuffer_toList inside
      rw [collecting.held] at line
      refine ⟨?_, line, nul⟩
      rw [List.length_append, List.length_singleton, length]
    · rw [receiveCmd_more inside ends] at sound ⊢
      rw [Lines.step_more room ends]
      refine ⟨⟨collecting.mode, sound, ?_⟩, .nil⟩
      rw [unfinished, toNat_succ_cmdIndex inside, take_stored inside, collecting.held]
  · have full : ¬ held.length < 127 := by
      rw [length]
      exact inside
    rw [receiveCmd_overflow inside] at sound ⊢
    rw [Lines.step_overflow full]
    exact ⟨⟨collecting.mode, sound, rfl⟩, .cons trivial .nil⟩

theorem commandReader_corresponds :
    Corresponds commandReader (lineReader newline 127) Collecting Ends where
  related _ _ data collecting := (commandReader_step collecting data).1
  emitted _ _ data collecting := (commandReader_step collecting data).2

/-! ## The flag -/

/-- The flag changes only where a line ends. -/
theorem commandReader_flag (u : Uart) (data : UInt8) :
    (commandReader.step u data).1.cmdFlag =
      (commandReader.step u data).2.foldl flagAfter u.cmdFlag := by
  rw [commandReader_eq]
  simp only [wifiUsartIrqHandler]
  split
  · have silent : lineEnds ((recDataProcessing u.recv data).2.map IrqEffect.recv) = [] := by
      rw [lineEnds, List.filterMap_map]
      exact List.filterMap_eq_nil_iff.mpr fun _ _ => rfl
    simp only [silent, List.foldl_nil]
  · split
    · simp only [receiveCmd]
      split
      · split <;> rfl
      · rfl
    · rfl

theorem flagAfter_eq {ended : LineEnd} {event : LineEvent UInt8} (ends : Ends ended event)
    (cmdFlag : UInt8) : flagAfter cmdFlag ended = (replyFlag event).getD cmdFlag := by
  cases ended with
  | returnCheck index wifiCmd =>
      cases event with
      | line symbols =>
          obtain ⟨rfl, holds, nul⟩ := ends
          rw [flagAfter, wifiCmdReturnCheck_eq, lineVerdict_ended holds nul, replyFlag]
      | overflow symbols => cases ends
  | overflow =>
      cases event with
      | line symbols => cases ends
      | overflow symbols => rfl

theorem foldl_flagAfter {ended : List LineEnd} {events : List (LineEvent UInt8)}
    (ends : List.Forall₂ Ends ended events) (cmdFlag : UInt8) :
    ended.foldl flagAfter cmdFlag =
      events.foldl (fun flag event => (replyFlag event).getD flag) cmdFlag := by
  induction ends generalizing cmdFlag with
  | nil => rfl
  | cons first _ ih => rw [List.foldl_cons, List.foldl_cons, flagAfter_eq first, ih]

/-- The flag after a stream in command mode: what the last line's end that says something
sets it to. -/
theorem cmdFlag_final {u : Uart} {held : List UInt8} (collecting : Collecting u held)
    (stream : List UInt8) :
    (usartIrq.final u stream).cmdFlag =
      ((((lineReader newline 127).trace held stream).filterMap replyFlag).getLast?).getD
        u.cmdFlag := by
  rw [← commandReader_final, commandReader.final_observed commandReader_flag,
    foldl_flagAfter (commandReader_corresponds.trace collecting stream),
    foldl_getD_eq_getLast]

/-! ## The line collector -/

/-- What the handler does with a stream received in command mode from `u`. -/
structure CollectsLines (u : Uart) (stream : List UInt8) : Prop where
  /-- Every store to `WIFI_CMD` is inside it. -/
  stores : ∀ index, IrqEffect.storeCmd index ∈ usartIrq.trace u stream → index ≤ 127
  index : ∀ n, (usartIrq.final u (stream.take n)).cmdIndex.toNat ≤ 127
  /-- The bytes of the lines, one after another, are what was unfinished before and is
  received since, and each is in the buffer when it is checked. -/
  lines : ∃ events : List (LineEvent UInt8),
    List.Forall₂ Ends (commandReader.trace u stream) events ∧
    (∀ event ∈ events, event.WellFormed newline 127) ∧
    unfinished u ++ stream =
      events.flatMap LineEvent.symbols ++ unfinished (usartIrq.final u stream) ∧
    newline ∉ unfinished (usartIrq.final u stream) ∧
    (usartIrq.final u stream).cmdFlag = ((events.filterMap replyFlag).getLast?).getD u.cmdFlag

theorem receiveCmd_stores {u : Uart} {data : UInt8} {index : Nat} (sound : LineSound u)
    (stored : IrqEffect.storeCmd index ∈ (receiveCmd u data).2) : index ≤ 127 := by
  have bounded := sound.index
  by_cases inside : u.cmdIndex.toNat < wifiCmdSize - 1
  · by_cases ends : data = newline
    · subst ends
      rw [receiveCmd_newline inside] at stored
      simp only [wifiCmdSize] at inside
      simp at stored
      omega
    · rw [receiveCmd_more inside ends] at stored
      simp only [wifiCmdSize] at inside
      simp at stored
      omega
  · rw [receiveCmd_overflow inside] at stored
    simp [wifiCmdSize] at stored
    omega

/-- The stores of a whole stream. -/
theorem trace_stores {u : Uart} {held : List UInt8} (collecting : Collecting u held)
    {stream : List UInt8} {index : Nat}
    (stored : IrqEffect.storeCmd index ∈ usartIrq.trace u stream) : index ≤ 127 := by
  induction stream generalizing u held with
  | nil => cases stored
  | cons data rest ih =>
      rcases List.mem_append.mp stored with now | later
      · have here : IrqEffect.storeCmd index ∈ (receiveCmd u data).2 := by
          rw [← collecting.handler]
          exact now
        exact receiveCmd_stores collecting.sound here
      · exact ih (commandReader_corresponds.related u held data collecting) later

/-- **The line collector of the command replies**, from every reachable state in command
mode and for every stream. -/
theorem collects_lines (history : List UartEvent) (stream : List UInt8)
    (mode : (after history).recvStop = wifiRecvCmd) : CollectsLines (after history) stream := by
  have start : Collecting (after history) (unfinished (after history)) :=
    ⟨mode, after_lineSound history, rfl⟩
  have reached : ∀ bytes, Collecting (usartIrq.final (after history) bytes)
      ((lineReader newline 127).final (unfinished (after history)) bytes) := by
    intro bytes
    rw [← commandReader_final]
    exact commandReader_corresponds.final start bytes
  constructor
  · intro index stored
    exact trace_stores start stored
  · intro n
    exact (reached (stream.take n)).sound.index
  · refine ⟨(lineReader newline 127).trace (unfinished (after history)) stream,
      commandReader_corresponds.trace start stream, ?_, ?_, ?_, cmdFlag_final start stream⟩
    · exact (Lines.trace_wellFormed start.line stream).2
    · rw [(reached stream).held, Lines.trace_tiles]
    · exact (reached stream).sound.line

/-- A reply that fails and one that succeeds, after an echo left unfinished. -/
theorem collects_lines_replies : CollectsLines (after [.recvStop 1, .byte 65, .byte 84])
    (ascii "E0\r\nERROR\r\nOK\r\n") := collects_lines _ _ rfl

end EinkLiteOS.User
