/-
# User.UsartIrq -- the UART interrupt and its receive modes

`WIFI_USART_IRQHandler` of `User/ch32v30x_it.c`, one call per received byte.  What
happens to the byte is decided by `WIFI_RECVSTOP`, which `WIFI_Init` and `WIFI_SendCMD`
store to: in `WIFI_RECV_DATA` it goes to `recDataProcessing`, in `WIFI_RECV_CMD` into the
reply line in `WIFI_CMD`, and in any other mode it is dropped and the line with it.

A history is what the handler has seen: received bytes, and stores to `WIFI_RECVSTOP`
and `WIFI_CMD_FLAG` between them.
-/
import EinkLiteOS.Device.Esp8266
import EinkLiteOS.User.RecData

namespace EinkLiteOS.User

open EinkLiteOS.Theory
open EinkLiteOS.Device

set_option autoImplicit false

/-- What one call of the handler does, in order, besides changing its variables. -/
inductive IrqEffect where
  | recv (effect : RecvEffect)
  /-- A store to `WIFI_CMD[index]`. -/
  | storeCmd (index : Nat)
  /-- `WIFI_CMD_ReturnCheck()` with this buffer, terminated at `index`. -/
  | returnCheck (index : Nat) (wifiCmd : Vector UInt8 wifiCmdSize)
  /-- The line does not fit in the buffer. -/
  | overflow
  deriving DecidableEq, Repr

/-- The variables of the handler: the mode and the flag, the reply line with the static
`cmd_index`, and those of `recDataProcessing`. -/
structure Uart where
  recvStop : UInt8
  cmdFlag : UInt8
  wifiCmd : Vector UInt8 wifiCmdSize
  cmdIndex : UInt16
  recv : Recv
  deriving DecidableEq, Repr

/-- The variables after reset. -/
def Uart.reset : Uart := ⟨0, 0, Vector.replicate wifiCmdSize 0, 0, Recv.reset⟩

/-- `'\n'` -/
def newline : UInt8 := 10

/-- The handler in `WIFI_RECV_CMD`. -/
def receiveCmd (u : Uart) (data : UInt8) : Uart × List IrqEffect :=
  if u.cmdIndex.toNat < wifiCmdSize - 1 then
    let wifiCmd := u.wifiCmd.setIfInBounds u.cmdIndex.toNat data
    let cmdIndex := u.cmdIndex + 1
    if data = newline then
      let ended := wifiCmd.setIfInBounds cmdIndex.toNat 0
      ({ u with
          wifiCmd := ended
          cmdIndex := 0
          cmdFlag := wifiCmdReturnCheck ended u.cmdFlag },
        [.storeCmd u.cmdIndex.toNat, .storeCmd cmdIndex.toNat,
          .returnCheck cmdIndex.toNat ended])
    else
      ({ u with wifiCmd := wifiCmd, cmdIndex := cmdIndex }, [.storeCmd u.cmdIndex.toNat])
  else
    ({ u with
        wifiCmd := u.wifiCmd.setIfInBounds (wifiCmdSize - 1) 0
        cmdIndex := 0
        cmdFlag := 2 },
      [.storeCmd (wifiCmdSize - 1), .overflow])

/-- `WIFI_USART_IRQHandler()` with `data` received. -/
def wifiUsartIrqHandler (u : Uart) (data : UInt8) : Uart × List IrqEffect :=
  if u.recvStop = wifiRecvData then
    let (recv, effects) := recDataProcessing u.recv data
    ({ u with recv := recv }, effects.map .recv)
  else if u.recvStop = wifiRecvCmd then receiveCmd u data
  else ({ u with cmdIndex := 0 }, [])

/-- The interrupt, byte by byte. -/
def usartIrq : Transducer Uart UInt8 IrqEffect := ⟨wifiUsartIrqHandler⟩

/-! ## Histories -/

/-- A received byte, or a store to one of the two variables the threads share with the
handler. -/
inductive UartEvent where
  | byte (data : UInt8)
  | recvStop (mode : UInt8)
  | cmdFlag (flag : UInt8)
  deriving DecidableEq, Repr

def UartEvent.apply (u : Uart) : UartEvent → Uart
  | .byte data => (wifiUsartIrqHandler u data).1
  | .recvStop mode => { u with recvStop := mode }
  | .cmdFlag flag => { u with cmdFlag := flag }

/-- `WIFI_SendCMD` begins: it clears the flag and listens for the reply. -/
def listening : List UartEvent := [.cmdFlag 0, .recvStop wifiRecvCmd]

/-- The variables after some history. -/
def after (history : List UartEvent) : Uart := history.foldl UartEvent.apply Uart.reset

theorem after_append (history later : List UartEvent) :
    after (history ++ later) = later.foldl UartEvent.apply (after history) := List.foldl_append

/-- What every history keeps, every reachable state has. -/
theorem after_induction {I : Uart → Prop} (start : I Uart.reset)
    (step : ∀ u (event : UartEvent), I u → I (event.apply u)) (history : List UartEvent) :
    I (after history) := by
  induction history using List.reverseRecOn with
  | nil => exact start
  | append_singleton history event ih =>
      rw [after_append]
      exact step _ event ih

/-! ## The reply line -/

/-- The unfinished line. -/
def unfinished (u : Uart) : List UInt8 := u.wifiCmd.toList.take u.cmdIndex.toNat

/-- The index is inside the buffer, and the unfinished line has no newline in it. -/
structure LineSound (u : Uart) : Prop where
  index : u.cmdIndex.toNat ≤ wifiCmdSize - 1
  line : newline ∉ unfinished u

theorem LineSound.length {u : Uart} (sound : LineSound u) :
    (unfinished u).length = u.cmdIndex.toNat := by
  have := sound.index
  rw [unfinished, List.length_take, Vector.length_toList]
  simp only [wifiCmdSize] at this ⊢
  omega

/-- No line has been begun. -/
theorem lineSound_zero {u : Uart} (start : u.cmdIndex = 0) : LineSound u := by
  constructor
  · rw [start]
    exact Nat.zero_le _
  · rw [unfinished, start]
    exact List.not_mem_nil

section Step

variable {u : Uart} {data : UInt8}

theorem toNat_succ_cmdIndex (inside : u.cmdIndex.toNat < wifiCmdSize - 1) :
    (u.cmdIndex + 1).toNat = u.cmdIndex.toNat + 1 := by
  simp only [wifiCmdSize] at inside
  rw [UInt16.toNat_add]
  show (u.cmdIndex.toNat + 1) % 2 ^ 16 = u.cmdIndex.toNat + 1
  omega

/-- The buffer with the byte stored and, at the end of the line, the terminator. -/
def endedBuffer (u : Uart) (data : UInt8) : Vector UInt8 wifiCmdSize :=
  (u.wifiCmd.setIfInBounds u.cmdIndex.toNat data).setIfInBounds (u.cmdIndex.toNat + 1) 0

theorem receiveCmd_newline (inside : u.cmdIndex.toNat < wifiCmdSize - 1) :
    receiveCmd u newline =
      ({ u with
          wifiCmd := endedBuffer u newline
          cmdIndex := 0
          cmdFlag := wifiCmdReturnCheck (endedBuffer u newline) u.cmdFlag },
        [.storeCmd u.cmdIndex.toNat, .storeCmd (u.cmdIndex.toNat + 1),
          .returnCheck (u.cmdIndex.toNat + 1) (endedBuffer u newline)]) := by
  simp only [receiveCmd, endedBuffer]
  simp only [if_pos inside, toNat_succ_cmdIndex inside, if_true]

theorem receiveCmd_more (inside : u.cmdIndex.toNat < wifiCmdSize - 1) (more : data ≠ newline) :
    receiveCmd u data =
      ({ u with
          wifiCmd := u.wifiCmd.setIfInBounds u.cmdIndex.toNat data
          cmdIndex := u.cmdIndex + 1 },
        [.storeCmd u.cmdIndex.toNat]) := by
  simp only [receiveCmd]
  rw [if_pos inside, if_neg more]

theorem receiveCmd_overflow (full : ¬ u.cmdIndex.toNat < wifiCmdSize - 1) :
    receiveCmd u data =
      ({ u with
          wifiCmd := u.wifiCmd.setIfInBounds (wifiCmdSize - 1) 0
          cmdIndex := 0
          cmdFlag := 2 },
        [.storeCmd (wifiCmdSize - 1), .overflow]) := by
  simp only [receiveCmd]
  rw [if_neg full]

/-- The stored byte extends the line. -/
theorem take_stored (inside : u.cmdIndex.toNat < wifiCmdSize - 1) :
    (u.wifiCmd.setIfInBounds u.cmdIndex.toNat data).toList.take (u.cmdIndex.toNat + 1) =
      unfinished u ++ [data] :=
  take_store u.wifiCmd (Nat.lt_of_lt_of_le inside (Nat.sub_le _ _)) data

/-- The terminator stands behind the line and leaves it alone. -/
theorem endedBuffer_toList (inside : u.cmdIndex.toNat < wifiCmdSize - 1) :
    (endedBuffer u data).toList.take (u.cmdIndex.toNat + 1) = unfinished u ++ [data] ∧
      (endedBuffer u data)[u.cmdIndex.toNat + 1]? = some 0 := by
  have bounded : u.cmdIndex.toNat + 1 < wifiCmdSize := by
    simp only [wifiCmdSize] at inside ⊢
    omega
  constructor
  · rw [endedBuffer, Vector.toList_setIfInBounds, List.take_set_of_le (Nat.le_refl _),
      take_stored inside]
  · rw [endedBuffer, Vector.getElem?_setIfInBounds_self, if_pos bounded]

theorem receiveCmd_sound (sound : LineSound u) : LineSound (receiveCmd u data).1 := by
  by_cases inside : u.cmdIndex.toNat < wifiCmdSize - 1
  · by_cases ends : data = newline
    · subst ends
      rw [receiveCmd_newline inside]
      exact lineSound_zero rfl
    · rw [receiveCmd_more inside ends]
      have index := toNat_succ_cmdIndex inside
      constructor
      · show (u.cmdIndex + 1).toNat ≤ wifiCmdSize - 1
        omega
      · rw [unfinished, index, take_stored inside]
        intro member
        rcases List.mem_append.mp member with before | now
        · exact sound.line before
        · exact ends (List.mem_singleton.mp now).symm
  · rw [receiveCmd_overflow inside]
    exact lineSound_zero rfl

end Step

/-- In every reachable state the reply line is sound. -/
theorem after_lineSound (history : List UartEvent) : LineSound (after history) := by
  refine after_induction (lineSound_zero rfl) ?_ history
  intro u event sound
  cases event with
  | byte data =>
      show LineSound (wifiUsartIrqHandler u data).1
      simp only [wifiUsartIrqHandler]
      split
      · exact ⟨sound.index, sound.line⟩
      · split
        · exact receiveCmd_sound sound
        · exact lineSound_zero rfl
  | recvStop mode => exact ⟨sound.index, sound.line⟩
  | cmdFlag flag => exact ⟨sound.index, sound.line⟩

/-- And so are the variables of `recDataProcessing`. -/
theorem after_recvSound (history : List UartEvent) : Sound (after history).recv := by
  refine after_induction (I := fun u => Sound u.recv) reset_sound ?_ history
  intro u event sound
  cases event with
  | byte data =>
      show Sound (wifiUsartIrqHandler u data).1.recv
      simp only [wifiUsartIrqHandler]
      split
      · exact (step_refines sound data).1
      · split
        · simp only [receiveCmd]
          split
          · split <;> exact sound
          · exact sound
        · exact sound
  | recvStop mode => exact sound
  | cmdFlag flag => exact sound

end EinkLiteOS.User
