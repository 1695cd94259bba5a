/-
# Device.EpdSpi -- the panel's wires

`Device/EPD_SPI.c` clocks every byte for the panel out by hand, bit by bit, and raises the
select line behind it.  `PanelOp.pins` is what an operation of `Device.Epd` does to the pins;
at the other end is the receiver of `Theory.SerialBus`, selected by a low `CS`, with `DC` as
the tag.  The receiver reads the bytes that were sent, as commands and data (`spi_delivers`).

The two tasks that use the panel share the wires.  A task that runs while another one is
between two pins of a byte breaks that byte, and the first one of its own (`Preempted`).
-/
import EinkLiteOS.Theory.SerialBus
import EinkLiteOS.Device.Epd

namespace EinkLiteOS.Device

open EinkLiteOS.Theory EinkLiteOS.Theory.SerialBus

set_option autoImplicit false

/-! ## Pins -/

/-- The levels of the output pins. -/
structure Pins where
  mosi : Bool
  clk : Bool
  cs : Bool
  dc : Bool
  rst : Bool
  deriving DecidableEq, Repr

/-- A pin set high or low: `EPD_MOSI_SET`, `EPD_MOSI_CLR` and so on. -/
inductive PinOp where
  | mosi (high : Bool)
  | clk (high : Bool)
  | cs (high : Bool)
  | dc (high : Bool)
  | rst (high : Bool)
  deriving DecidableEq, Repr

def PinOp.drive (pins : Pins) : PinOp → Pins
  | mosi high => { pins with mosi := high }
  | clk high => { pins with clk := high }
  | cs high => { pins with cs := high }
  | dc high => { pins with dc := high }
  | rst high => { pins with rst := high }

/-- The loop of `EPD_Write`, with the turns that are left. -/
def epdWriteLoop : Nat → UInt8 → List PinOp
  | 0, _ => []
  | turns + 1, data =>
      [.clk false, .mosi (data &&& 0x80 ≠ 0), .clk true] ++ epdWriteLoop turns (data <<< 1)

/-- `EPD_Write` -/
def epdWrite (data : UInt8) : List PinOp := epdWriteLoop 8 data

/-- A byte with the select line around it. -/
def writeByte (dc : Bool) (byte : UInt8) : List PinOp :=
  [.cs false, .dc dc] ++ epdWrite byte ++ [.cs true]

/-- `EPD_WriteCMD` -/
def epdWriteCmd (cmd : UInt8) : List PinOp := writeByte false cmd

/-- `EPD_WriteDATA` -/
def epdWriteData (data : UInt8) : List PinOp := writeByte true data

/-- What an operation does to the pins.  `EPD_CheckBusy` reads one and sets none. -/
def PanelOp.pins : PanelOp → List PinOp
  | .rstClr => [.rst false]
  | .rstSet => [.rst true]
  | .delay _ => []
  | .checkBusy => []
  | .writeCmd cmd => epdWriteCmd cmd
  | .writeData _ data => epdWriteData data

/-- The byte an operation sends, with the level of `DC`. -/
def PanelOp.sent? : PanelOp → Option (Bool × UInt8)
  | .writeCmd cmd => some (false, cmd)
  | .writeData _ data => some (true, data)
  | _ => none

theorem PanelOp.pins_of_sent {op : PanelOp} {dc : Bool} {byte : UInt8}
    (sends : op.sent? = some (dc, byte)) : op.pins = writeByte dc byte := by
  cases op <;> cases sends <;> rfl

theorem PanelOp.pins_of_silent {op : PanelOp} (silent : op.sent? = none) :
    ∀ pin ∈ op.pins, ∃ high, pin = .rst high := by
  cases op with
  | rstClr => exact List.forall_mem_singleton.mpr ⟨false, rfl⟩
  | rstSet => exact List.forall_mem_singleton.mpr ⟨true, rfl⟩
  | delay ms => exact List.forall_mem_nil _
  | checkBusy => exact List.forall_mem_nil _
  | writeCmd cmd => cases silent
  | writeData kind data => cases silent

/-! ## Bits and bytes -/

/-- The bits of a byte as the loop of `EPD_Write` takes them, the highest first. -/
def msbFirst : Nat → UInt8 → List Bool
  | 0, _ => []
  | turns + 1, data => (data &&& 0x80 ≠ 0 : Bool) :: msbFirst turns (data <<< 1)

/-- The byte of some bits, the highest first. -/
def byteOf (bits : List Bool) : UInt8 :=
  bits.foldl (fun byte bit => byte <<< 1 ||| if bit then 1 else 0) 0

@[simp] theorem length_msbFirst (turns : Nat) (data : UInt8) :
    (msbFirst turns data).length = turns := by
  induction turns generalizing data with
  | zero => rfl
  | succ turns ih => rw [msbFirst, List.length_cons, ih]

theorem byteOf_msbFirst (byte : UInt8) : byteOf (msbFirst 8 byte) = byte := by
  have all : ∀ n : Fin 256, byteOf (msbFirst 8 (UInt8.ofFin n)) = UInt8.ofFin n := by
    decide +kernel
  exact all byte.toFin

/-- A word of the receiver, as a byte. -/
def readByte (word : Bool × List Bool) : Bool × UInt8 := (word.1, byteOf word.2)

/-! ## What the receiver sees -/

/-- The lines of the receiver. -/
def Pins.lines (pins : Pins) : Lines :=
  { select := !pins.cs, tag := pins.dc, clock := pins.clk, data := pins.mosi }

/-- The levels after each change of a pin. -/
def sampled : Pins → List PinOp → List Lines
  | _, [] => []
  | pins, op :: rest => (op.drive pins).lines :: sampled (op.drive pins) rest

/-- The levels after some changes. -/
def driven (pins : Pins) (ops : List PinOp) : Pins := ops.foldl PinOp.drive pins

theorem sampled_append (pins : Pins) (front back : List PinOp) :
    sampled pins (front ++ back) = sampled pins front ++ sampled (driven pins front) back := by
  induction front generalizing pins with
  | nil => rfl
  | cons op rest ih => exact congrArg (_ :: ·) (ih _)

theorem driven_append (pins : Pins) (front back : List PinOp) :
    driven pins (front ++ back) = driven (driven pins front) back := List.foldl_append

theorem sampled_take (pins : Pins) (ops : List PinOp) (k : Nat) :
    sampled pins (ops.take k) = (sampled pins ops).take k := by
  induction ops generalizing pins k with
  | nil => simp [sampled]
  | cons op rest ih =>
      cases k with
      | zero => rfl
      | succ k => exact congrArg (_ :: ·) (ih _ k)

/-- The receiver of the panel. -/
def panelReceiver : Transducer Receiver Lines (Bool × List Bool) := receiver 8

/-- The receiver has seen the level of the clock. -/
def Seen (s : Receiver) (pins : Pins) : Prop := s.clock = pins.clk

theorem Seen.final {s : Receiver} {pins : Pins} (seen : Seen s pins) (ops : List PinOp) :
    Seen (panelReceiver.final s (sampled pins ops)) (driven pins ops) := by
  induction ops generalizing s pins with
  | nil => exact seen
  | cons op rest ih => exact ih (step_clock s _)

theorem sampled_epdWriteLoop (turns : Nat) (pins : Pins) (data : UInt8) :
    sampled pins (epdWriteLoop turns data) = wordLevels pins.lines (msbFirst turns data) := by
  induction turns generalizing pins data with
  | zero => rfl
  | succ turns ih =>
      have tail := ih { pins with clk := true, mosi := (data &&& 0x80 ≠ 0 : Bool) } (data <<< 1)
      exact congrArg (bitLevels pins.lines (data &&& 0x80 ≠ 0 : Bool) ++ ·) tail

/-! ## One operation -/

/-- Changes of `RST` pass the receiver by. -/
theorem receive_rst {s : Receiver} {pins : Pins} (seen : Seen s pins)
    (idle : pins.cs = true → s.bits = []) {ops : List PinOp}
    (only : ∀ pin ∈ ops, ∃ high, pin = .rst high) :
    panelReceiver.final s (sampled pins ops) = s ∧ panelReceiver.trace s (sampled pins ops) = [] ∧
      (driven pins ops).lines = pins.lines := by
  induction ops generalizing pins with
  | nil => exact ⟨rfl, rfl, rfl⟩
  | cons pin rest ih =>
      obtain ⟨⟨high, rfl⟩, others⟩ := List.forall_mem_cons.mp only
      have still : panelReceiver.step s ((PinOp.rst high).drive pins).lines = (s, []) := by
        cases off : pins.cs with
        | false => exact step_still (show (!pins.cs) = true by rw [off]; rfl) seen
        | true =>
            obtain ⟨clock, bits⟩ := s
            cases idle off
            cases seen
            exact step_unselected (show (!pins.cs) = false by rw [off]; rfl) _
      obtain ⟨final, trace, lines⟩ := @ih ((PinOp.rst high).drive pins) seen idle others
      rw [sampled, Transducer.final_cons, Transducer.trace_cons, still]
      exact ⟨final, trace, lines⟩

/-- The select and the tag are set with the clock at rest. -/
theorem receive_select {s : Receiver} {pins : Pins} (seen : Seen s pins) (dc : Bool) :
    panelReceiver.final s (sampled pins [.cs false, .dc dc]) = s ∧
      panelReceiver.trace s (sampled pins [.cs false, .dc dc]) = [] := by
  have select : panelReceiver.step s ((PinOp.cs false).drive pins).lines = (s, []) :=
    step_still rfl seen
  have tag : panelReceiver.step s
      ((PinOp.dc dc).drive ((PinOp.cs false).drive pins)).lines = (s, []) :=
    step_still rfl seen
  rw [sampled, sampled, sampled, Transducer.final_cons, Transducer.trace_cons, select,
    Transducer.final_cons, Transducer.trace_cons, tag]
  exact ⟨rfl, rfl⟩

/-- The levels while a byte is sent, up to the release of the select line. -/
theorem sampled_writeByte (pins : Pins) (dc : Bool) (byte : UInt8) :
    sampled pins (writeByte dc byte) =
      sampled pins [.cs false, .dc dc] ++
        wordLevels { select := true, tag := dc, clock := pins.clk, data := pins.mosi }
          (msbFirst 8 byte) ++
        sampled (driven pins ([.cs false, .dc dc] ++ epdWrite byte)) [.cs true] := by
  rw [writeByte, sampled_append, sampled_append, epdWrite, sampled_epdWriteLoop]
  rfl

/-- **A byte sent to a receiver that holds some bits.** -/
theorem receive_writeByte {s : Receiver} {pins : Pins} (seen : Seen s pins)
    (begun : s.bits.length < 8) (dc : Bool) (byte : UInt8) :
    (panelReceiver.final s (sampled pins (writeByte dc byte))).bits = [] ∧
      panelReceiver.trace s (sampled pins (writeByte dc byte)) =
        [(dc, s.bits ++ (msbFirst 8 byte).take (8 - s.bits.length))] := by
  obtain ⟨final, trace⟩ := receive_select seen dc
  obtain ⟨-, word⟩ := receive_over (n := 8)
    (l := { select := true, tag := dc, clock := pins.clk, data := pins.mosi }) rfl s
    (length_msbFirst 8 byte) begun
  rw [sampled_writeByte, Transducer.final_append, Transducer.trace_append, Transducer.final_append,
    Transducer.trace_append, final, trace]
  have released : ∀ l ∈ sampled (driven pins ([.cs false, .dc dc] ++ epdWrite byte)) [.cs true],
      l.select = false := List.forall_mem_singleton.mpr rfl
  obtain ⟨silent, empty⟩ := receive_unselected (n := 8) released
    (panelReceiver.final s (wordLevels _ (msbFirst 8 byte)))
  refine ⟨empty (List.cons_ne_nil _ _), ?_⟩
  rw [List.nil_append]
  exact (congrArg (_ ++ ·) silent).trans ((List.append_nil _).trans word)

/-- Bytes read by a receiver that holds some bits of another one: the first of them is cut. -/
def mixFirst (held : List Bool) : List (Bool × UInt8) → List (Bool × UInt8)
  | [] => []
  | (dc, byte) :: rest => (dc, byteOf (held ++ (msbFirst 8 byte).take (8 - held.length))) :: rest

theorem mixFirst_nil (sent : List (Bool × UInt8)) : mixFirst [] sent = sent := by
  cases sent with
  | nil => rfl
  | cons first rest =>
      have whole : (msbFirst 8 first.2).take 8 = msbFirst 8 first.2 :=
        List.take_of_length_le (Nat.le_of_eq (length_msbFirst 8 first.2))
      simp only [mixFirst, List.nil_append, List.length_nil, whole, byteOf_msbFirst]

@[simp] theorem length_mixFirst (held : List Bool) (sent : List (Bool × UInt8)) :
    (mixFirst held sent).length = sent.length := by
  cases sent <;> rfl

/-- The bytes of some operations. -/
def sentBytes (ops : List PanelOp) : List (Bool × UInt8) := ops.filterMap PanelOp.sent?

/-- What some operations do to the pins. -/
def panelPins (ops : List PanelOp) : List PinOp := ops.flatMap PanelOp.pins

/-- **Operations read by a receiver that holds some bits**: all their bytes, the first of them
cut.  After one byte nothing is held and the receiver is not selected. -/
theorem receive_ops (ops : List PanelOp) {s : Receiver} {pins : Pins} (seen : Seen s pins)
    (begun : s.bits.length < 8) (idle : pins.cs = true → s.bits = []) :
    (panelReceiver.trace s (sampled pins (panelPins ops))).map readByte =
        mixFirst s.bits (sentBytes ops) ∧
      (sentBytes ops = [] →
        panelReceiver.final s (sampled pins (panelPins ops)) = s ∧
          (driven pins (panelPins ops)).lines = pins.lines) ∧
      (sentBytes ops ≠ [] →
        (panelReceiver.final s (sampled pins (panelPins ops))).bits = [] ∧
          (driven pins (panelPins ops)).cs = true) := by
  induction ops generalizing s pins with
  | nil => exact ⟨rfl, fun _ => ⟨rfl, rfl⟩, fun some => absurd rfl some⟩
  | cons op rest ih =>
      have pinsSplit : panelPins (op :: rest) = op.pins ++ panelPins rest := List.flatMap_cons
      rw [pinsSplit, sampled_append, driven_append, Transducer.trace_append,
        Transducer.final_append, List.map_append]
      cases sends : op.sent? with
      | none =>
          have bytes : sentBytes (op :: rest) = sentBytes rest := List.filterMap_cons_none sends
          obtain ⟨final, trace, lines⟩ :=
            receive_rst seen idle (PanelOp.pins_of_silent sends)
          have seen' : Seen s (driven pins op.pins) := seen.trans (congrArg Lines.clock lines).symm
          have select := congrArg Lines.select lines
          have cs : (driven pins op.pins).cs = pins.cs := by
            simpa [Pins.lines] using select
          rw [final, trace, bytes]
          obtain ⟨traced, silent, loud⟩ := ih seen' begun (fun off => idle (cs ▸ off))
          exact ⟨traced, fun none => ⟨(silent none).1, (silent none).2.trans lines⟩, loud⟩
      | some sent =>
          obtain ⟨dc, byte⟩ := sent
          have bytes : sentBytes (op :: rest) = (dc, byte) :: sentBytes rest :=
            List.filterMap_cons_some sends
          obtain ⟨empty, trace⟩ := receive_writeByte seen begun dc byte
          have seen' := Seen.final seen (writeByte dc byte)
          have released : (driven pins (writeByte dc byte)).cs = true := by
            rw [writeByte, driven_append]
            rfl
          rw [PanelOp.pins_of_sent sends, bytes, trace]
          obtain ⟨traced, silent, loud⟩ := ih seen' (by rw [empty]; decide) (fun _ => empty)
          refine ⟨?_, fun none => absurd none (List.cons_ne_nil _ _), fun _ => ?_⟩
          · rw [traced, empty, mixFirst_nil]
            rfl
          · by_cases none : sentBytes rest = []
            · obtain ⟨final, lines⟩ := silent none
              refine ⟨by rw [final, empty], ?_⟩
              have select := congrArg Lines.select lines
              simpa [Pins.lines, released] using select
            · exact loud none

/-- **The panel reads what is sent to it**: at whatever pace the receiver samples its lines, it
reads the bytes of the operations, in their order, as commands and data. -/
theorem spi_delivers (ops : List PanelOp) {s : Receiver} {pins : Pins} (seen : Seen s pins)
    (empty : s.bits = []) {samples : List Lines}
    (stretched : Stretches samples (sampled pins (panelPins ops))) :
    (panelReceiver.trace s samples).map readByte = sentBytes ops := by
  have received := (receive_ops ops seen (by rw [empty]; decide) (fun _ => empty)).1
  rw [empty, mixFirst_nil] at received
  rw [panelReceiver, (stretched.run s).2]
  exact received

/-- The refresh, from pins that are all low. -/
theorem spi_delivers_update :
    (panelReceiver.trace ⟨false, []⟩
      (sampled ⟨false, false, false, false, false⟩ (panelPins epdUpdate))).map readByte =
        sentBytes epdUpdate := by
  have seen : Seen ⟨false, []⟩ ⟨false, false, false, false, false⟩ := rfl
  exact spi_delivers epdUpdate seen rfl (Stretches.refl _)

/-! ## Two tasks on the wires -/

/-- An operation, and what another task does to the panel when `point` of its pin changes are
made. -/
structure Preempted where
  op : PanelOp
  point : Nat
  inner : List PanelOp

namespace Preempted

def pins (p : Preempted) : List PinOp :=
  p.op.pins.take p.point ++ panelPins p.inner ++ p.op.pins.drop p.point

/-- The byte is cut: the other task sends something between its first pin change and its last
clock. -/
def Cut (p : Preempted) : Prop :=
  p.op.sent?.isSome ∧ (0 < p.point ∧ p.point < 26) ∧ sentBytes p.inner ≠ []

instance (p : Preempted) : Decidable p.Cut := inferInstanceAs (Decidable (_ ∧ _))

/-- The bytes of both tasks, in the order they are completed. -/
def completed (p : Preempted) : List (Bool × UInt8) :=
  if p.point < 26 then sentBytes p.inner ++ p.op.sent?.toList
  else p.op.sent?.toList ++ sentBytes p.inner

/-- The bits of the operation that the receiver holds when the other task begins. -/
def held (p : Preempted) : List Bool :=
  match p.op.sent? with
  | none => []
  | some (_, byte) => (msbFirst 8 byte).take ((p.point - 2) / 3)

/-- What the receiver reads: a cut byte is lost, and the first byte of the other task begins
with its bits. -/
def received (p : Preempted) : List (Bool × UInt8) :=
  if p.Cut then mixFirst p.held (sentBytes p.inner) else p.completed

end Preempted

/-- With the select line high, nothing but `EPD_CS_CLR` selects the receiver. -/
theorem sampled_released {pins : Pins} (high : pins.cs = true) {ops : List PinOp}
    (released : .cs false ∉ ops) : ∀ l ∈ sampled pins ops, l.select = false := by
  induction ops generalizing pins with
  | nil => exact List.forall_mem_nil _
  | cons op rest ih =>
      rw [List.mem_cons, not_or] at released
      have stays : (op.drive pins).cs = true := by
        cases op with
        | cs level =>
            cases level with
            | false => exact absurd rfl released.1
            | true => rfl
        | _ => exact high
      refine List.forall_mem_cons.mpr ⟨?_, ih stays released.2⟩
      show (!(op.drive pins).cs) = false
      rw [stays]
      rfl

theorem driven_cs {ops : List PinOp} (free : ∀ high, .cs high ∉ ops) (pins : Pins) :
    (driven pins ops).cs = pins.cs := by
  induction ops generalizing pins with
  | nil => rfl
  | cons op rest ih =>
      have stays : (op.drive pins).cs = pins.cs := by
        cases op with
        | cs level => exact absurd List.mem_cons_self (free level)
        | _ => rfl
      exact (ih (fun high member => free high (List.mem_cons_of_mem op member)) _).trans stays

theorem select_notMem_epdWriteLoop (turns : Nat) (data : UInt8) (high : Bool) :
    .cs high ∉ epdWriteLoop turns data := by
  induction turns generalizing data with
  | zero => exact List.not_mem_nil
  | succ turns ih => simp [epdWriteLoop, ih]

/-- A byte is selected once, by its first pin change. -/
theorem select_notMem_drop (dc : Bool) (byte : UInt8) {k : Nat} (begun : 0 < k) :
    .cs false ∉ (writeByte dc byte).drop k := by
  obtain ⟨k, rfl⟩ := Nat.exists_eq_succ_of_ne_zero (Nat.ne_of_gt begun)
  intro member
  have later : .cs false ∈ [PinOp.dc dc] ++ epdWrite byte ++ [.cs true] :=
    List.mem_of_mem_drop (i := k) member
  simp [epdWrite, select_notMem_epdWriteLoop] at later

theorem length_epdWriteLoop (turns : Nat) (data : UInt8) :
    (epdWriteLoop turns data).length = 3 * turns := by
  induction turns generalizing data with
  | zero => rfl
  | succ turns ih =>
      rw [epdWriteLoop, List.length_append, ih]
      show 3 + 3 * turns = 3 * (turns + 1)
      omega

/-- A byte that has been begun, before its last clock: the receiver holds its first bits. -/
theorem receive_begun {s : Receiver} {pins : Pins} (seen : Seen s pins) (empty : s.bits = [])
    (dc : Bool) (byte : UInt8) {k : Nat} (begun : 0 < k) (cut : k < 26) :
    (panelReceiver.final s (sampled pins ((writeByte dc byte).take k))).bits =
        (msbFirst 8 byte).take ((k - 2) / 3) ∧
      panelReceiver.trace s (sampled pins ((writeByte dc byte).take k)) = [] ∧
      (driven pins ((writeByte dc byte).take k)).cs = false := by
  have front : (writeByte dc byte).take k = ([PinOp.cs false, .dc dc] ++ epdWrite byte).take k := by
    rw [writeByte]
    apply List.take_append_of_le_length
    rw [List.length_append, epdWrite, length_epdWriteLoop]
    show k ≤ 2 + 3 * 8
    omega
  have selected : (driven pins ((writeByte dc byte).take k)).cs = false := by
    rw [front]
    obtain ⟨k, rfl⟩ := Nat.exists_eq_succ_of_ne_zero (Nat.ne_of_gt begun)
    refine driven_cs ?_ ((PinOp.cs false).drive pins)
    intro high member
    have later := List.mem_of_mem_take member
    simp [epdWrite, select_notMem_epdWriteLoop] at later
  rw [← and_assoc]
  refine ⟨?_, selected⟩
  rw [front]
  match k with
  | 1 =>
      have still : panelReceiver.step s ((PinOp.cs false).drive pins).lines = (s, []) :=
        step_still rfl seen
      show (panelReceiver.final s [((PinOp.cs false).drive pins).lines]).bits = [] ∧
        panelReceiver.trace s [((PinOp.cs false).drive pins).lines] = []
      rw [Transducer.final_cons, Transducer.trace_cons, still]
      exact ⟨empty, rfl⟩
  | k + 2 =>
      obtain ⟨final, trace⟩ := receive_select seen dc
      have room : s.bits.length + (msbFirst 8 byte).length ≤ 8 := by
        rw [empty, length_msbFirst]
        decide
      obtain ⟨bits, silent⟩ := receive_prefix (n := 8)
        (l := { select := true, tag := dc, clock := pins.clk, data := pins.mosi }) rfl s room
        (k := k) (by rw [length_msbFirst]; omega)
      have split : ([PinOp.cs false, .dc dc] ++ epdWrite byte).take (k + 2) =
          [PinOp.cs false, .dc dc] ++ (epdWrite byte).take k := rfl
      rw [split, sampled_append, sampled_take, epdWrite, sampled_epdWriteLoop,
        Transducer.final_append, Transducer.trace_append, final, trace]
      rw [empty] at bits
      exact ⟨bits, silent⟩

/-- The wires between two operations: the receiver has seen the clock and holds nothing. -/
def Ready (s : Receiver) (pins : Pins) : Prop := Seen s pins ∧ s.bits = []

/-- From one moment between two operations to another, the receiver reads these bytes. -/
def Transfers (s : Receiver) (pins : Pins) (ops : List PinOp) (bytes : List (Bool × UInt8)) : Prop :=
  (panelReceiver.trace s (sampled pins ops)).map readByte = bytes ∧
    Ready (panelReceiver.final s (sampled pins ops)) (driven pins ops)

theorem Transfers.append {s : Receiver} {pins : Pins} {front back : List PinOp}
    {bytes bytes' : List (Bool × UInt8)} (first : Transfers s pins front bytes)
    (second : Transfers (panelReceiver.final s (sampled pins front)) (driven pins front) back
      bytes') :
    Transfers s pins (front ++ back) (bytes ++ bytes') := by
  simp only [Transfers]
  rw [sampled_append, driven_append, Transducer.trace_append, Transducer.final_append,
    List.map_append, first.1, second.1]
  exact ⟨rfl, second.2⟩

/-- Operations one after the other are read as they are sent. -/
theorem Ready.ops {s : Receiver} {pins : Pins} (ready : Ready s pins) (ops : List PanelOp) :
    Transfers s pins (panelPins ops) (sentBytes ops) := by
  obtain ⟨seen, empty⟩ := ready
  obtain ⟨traced, silent, loud⟩ := receive_ops ops seen (by rw [empty]; decide) fun _ => empty
  rw [empty, mixFirst_nil] at traced
  refine ⟨traced, seen.final _, ?_⟩
  by_cases none : sentBytes ops = []
  · rw [(silent none).1, empty]
  · exact (loud none).1

theorem Ready.op {s : Receiver} {pins : Pins} (ready : Ready s pins) (op : PanelOp) :
    Transfers s pins op.pins op.sent?.toList := by
  have reads := ready.ops [op]
  have bytes : sentBytes [op] = op.sent?.toList := by
    cases sends : op.sent? <;> simp [sentBytes, sends]
  rwa [bytes, panelPins, List.flatMap_singleton] at reads

theorem Ready.rst {s : Receiver} {pins : Pins} (ready : Ready s pins) (ops : List PinOp)
    (only : ∀ pin ∈ ops, ∃ high, pin = .rst high) : Transfers s pins ops [] := by
  obtain ⟨final, trace, lines⟩ := receive_rst ready.1 (fun _ => ready.2) only
  refine ⟨congrArg _ trace, ready.1.final ops, ?_⟩
  rw [final]
  exact ready.2

/-- What goes past the receiver unselected reads as nothing. -/
theorem Ready.released {s : Receiver} {pins : Pins} (ready : Ready s pins) {ops : List PinOp}
    (off : ∀ l ∈ sampled pins ops, l.select = false) : Transfers s pins ops [] := by
  obtain ⟨silent, empty⟩ := receive_unselected (n := 8) off s
  refine ⟨congrArg _ silent, ready.1.final ops, ?_⟩
  by_cases none : sampled pins ops = []
  · rw [none]
    exact ready.2
  · exact empty none

/-- Only the lines matter to what is sampled. -/
theorem sampled_congr {pins pins' : Pins} (same : pins.lines = pins'.lines) (ops : List PinOp) :
    sampled pins ops = sampled pins' ops ∧ (driven pins ops).lines = (driven pins' ops).lines := by
  induction ops generalizing pins pins' with
  | nil => exact ⟨rfl, same⟩
  | cons op rest ih =>
      have next : (op.drive pins).lines = (op.drive pins').lines := by
        obtain ⟨mosi, clk, cs, dc, rst⟩ := pins
        obtain ⟨mosi', clk', cs', dc', rst'⟩ := pins'
        simp only [Pins.lines, Lines.mk.injEq] at same
        cases op <;> simp [PinOp.drive, Pins.lines, same]
      obtain ⟨samples, lines⟩ := ih next
      exact ⟨by rw [sampled, sampled, next, samples], lines⟩

/-- An operation with its last clock made, and perhaps its release. -/
theorem Ready.clocked {s : Receiver} {pins : Pins} (ready : Ready s pins) (dc : Bool)
    (byte : UInt8) {k : Nat} (last : 26 ≤ k) :
    Transfers s pins ((writeByte dc byte).take k) [(dc, byte)] := by
  obtain ⟨seen, empty⟩ := ready
  have split : (writeByte dc byte).take k =
      [.cs false, .dc dc] ++ epdWrite byte ++ [PinOp.cs true].take (k - 26) := by
    have length : ([PinOp.cs false, .dc dc] ++ epdWrite byte).length = 26 := by
      rw [List.length_append, epdWrite, length_epdWriteLoop]
      rfl
    rw [writeByte, List.take_append, length, List.take_of_length_le (by rw [length]; exact last)]
  have written : Transfers s pins ([.cs false, .dc dc] ++ epdWrite byte) [(dc, byte)] := by
    have some : msbFirst 8 byte ≠ [] := List.cons_ne_nil _ _
    obtain ⟨final, trace⟩ := receive_select seen dc
    obtain ⟨bits, word⟩ := trace_word (n := 8)
      (l := { select := true, tag := dc, clock := pins.clk, data := pins.mosi }) rfl s some
      (by rw [empty, length_msbFirst]; rfl)
    rw [empty, List.nil_append] at word
    refine ⟨?_, seen.final _, ?_⟩
    all_goals
      rw [sampled_append, epdWrite, sampled_epdWriteLoop]
    · rw [Transducer.trace_append, final, trace, List.nil_append]
      refine (congrArg (List.map readByte) word).trans ?_
      simp [readByte, byteOf_msbFirst]
    · rw [Transducer.final_append, final]
      exact bits
  have off : ∀ l ∈ sampled (driven pins ([.cs false, .dc dc] ++ epdWrite byte))
      ([PinOp.cs true].take (k - 26)), l.select = false := by
    rw [sampled_take]
    intro l member
    cases List.mem_singleton.mp (List.mem_of_mem_take member)
    rfl
  rw [split]
  exact written.append (written.2.released off)

/-- An operation broken off inside its byte by a task that sends something. -/
theorem Ready.broken {s : Receiver} {pins : Pins} (ready : Ready s pins) (dc : Bool)
    (byte : UInt8) {k : Nat} (begun : 0 < k) (cut : k < 26) {inner : List PanelOp}
    (loud : sentBytes inner ≠ []) :
    Transfers s pins ((writeByte dc byte).take k ++ panelPins inner ++ (writeByte dc byte).drop k)
      (mixFirst ((msbFirst 8 byte).take ((k - 2) / 3)) (sentBytes inner)) := by
  obtain ⟨bits, silent, selected⟩ := receive_begun ready.1 ready.2 dc byte begun cut
  have few : ((msbFirst 8 byte).take ((k - 2) / 3)).length < 8 := by
    rw [List.length_take, length_msbFirst]
    omega
  obtain ⟨traced, -, after⟩ := receive_ops inner (ready.1.final ((writeByte dc byte).take k))
    (by rw [bits]; exact few) fun off => absurd (selected.symm.trans off) Bool.false_ne_true
  have mixed : Transfers s pins ((writeByte dc byte).take k ++ panelPins inner)
      (mixFirst ((msbFirst 8 byte).take ((k - 2) / 3)) (sentBytes inner)) := by
    refine ⟨?_, ready.1.final _, ?_⟩
    · rw [sampled_append, Transducer.trace_append, silent, List.nil_append, traced, bits]
    · rw [sampled_append, Transducer.final_append]
      exact (after loud).1
  have released : (driven pins ((writeByte dc byte).take k ++ panelPins inner)).cs = true := by
    rw [driven_append]
    exact (after loud).2
  have rest := mixed.2.released (sampled_released released (select_notMem_drop dc byte begun))
  have whole := mixed.append rest
  rwa [List.append_nil] at whole

/-- An operation that another task holds up without sending anything. -/
theorem Ready.heldUp {s : Receiver} {pins : Pins} (ready : Ready s pins) (dc : Bool)
    (byte : UInt8) {k : Nat} (begun : 0 < k) (cut : k < 26) {inner : List PanelOp}
    (quiet : sentBytes inner = []) :
    Transfers s pins ((writeByte dc byte).take k ++ panelPins inner ++ (writeByte dc byte).drop k)
      [(dc, byte)] := by
  obtain ⟨bits, -, selected⟩ := receive_begun ready.1 ready.2 dc byte begun cut
  have few : ((msbFirst 8 byte).take ((k - 2) / 3)).length < 8 := by
    rw [List.length_take, length_msbFirst]
    omega
  obtain ⟨traced, still, -⟩ := receive_ops inner (ready.1.final ((writeByte dc byte).take k))
    (by rw [bits]; exact few) fun off => absurd (selected.symm.trans off) Bool.false_ne_true
  obtain ⟨final, lines⟩ := still quiet
  have silent : panelReceiver.trace (panelReceiver.final s (sampled pins
      ((writeByte dc byte).take k))) (sampled (driven pins ((writeByte dc byte).take k))
        (panelPins inner)) = [] := by
    rw [quiet] at traced
    exact List.map_eq_nil_iff.mp traced
  -- the rest of the byte is sampled as if nothing had come between
  have later := (sampled_congr lines ((writeByte dc byte).drop k)).1
  have whole := ready.clocked dc byte (k := 27) (by decide)
  have length : (writeByte dc byte).length = 27 := by
    rw [writeByte, List.length_append, List.length_append, epdWrite, length_epdWriteLoop]
    rfl
  rw [List.take_of_length_le (Nat.le_of_eq length)] at whole
  have split : sampled pins (writeByte dc byte) =
      sampled pins ((writeByte dc byte).take k) ++
        sampled (driven pins ((writeByte dc byte).take k)) ((writeByte dc byte).drop k) := by
    rw [← sampled_append, List.take_append_drop]
  have traceSplit := congrArg (panelReceiver.trace s) split
  have finalSplit := congrArg (panelReceiver.final s) split
  rw [Transducer.trace_append] at traceSplit
  rw [Transducer.final_append] at finalSplit
  refine ⟨?_, ready.1.final _, ?_⟩
  all_goals
    rw [sampled_append, sampled_append, driven_append, later]
  · rw [Transducer.trace_append, Transducer.trace_append, Transducer.final_append, silent, final,
      List.append_nil, ← traceSplit]
    exact whole.1
  · rw [Transducer.final_append, Transducer.final_append, final, ← finalSplit]
    exact whole.2.2

/-- An operation that no other task cuts. -/
theorem Ready.uncut {s : Receiver} {pins : Pins} (ready : Ready s pins) {p : Preempted}
    {dc : Bool} {byte : UInt8} (sends : p.op.sent? = some (dc, byte)) (cut : ¬ p.Cut) :
    Transfers s pins p.pins p.completed := by
  obtain ⟨op, point, inner⟩ := p
  simp only [Preempted.pins, Preempted.completed, PanelOp.pins_of_sent sends]
  simp only [Preempted.Cut, sends, Option.isSome_some, true_and, not_and, not_not] at cut
  rw [show op.sent? = some (dc, byte) from sends]
  by_cases late : 26 ≤ point
  · -- the byte is over
    rw [if_neg (Nat.not_lt.mpr late)]
    have first := ready.clocked dc byte late
    have middle := first.append (first.2.ops inner)
    have back : (writeByte dc byte).drop point = [PinOp.cs true].drop (point - 26) := by
      have length : ([PinOp.cs false, .dc dc] ++ epdWrite byte).length = 26 := by
        rw [List.length_append, epdWrite, length_epdWriteLoop]
        rfl
      rw [writeByte, List.drop_append, length, List.drop_of_length_le (by rw [length]; exact late),
        List.nil_append]
    have off : ∀ pins, ∀ l ∈ sampled pins ((writeByte dc byte).drop point),
        l.select = false := by
      intro pins l member
      rw [back] at member
      generalize point - 26 = more at member
      cases more with
      | zero =>
          cases List.mem_singleton.mp member
          rfl
      | succ more =>
          rw [List.drop_succ_cons, List.drop_nil] at member
          exact absurd member List.not_mem_nil
    have rest := middle.append (middle.2.released (off _))
    rwa [List.append_nil] at rest
  · have early : point < 26 := Nat.lt_of_not_le late
    rw [if_pos early]
    cases point with
    | zero =>
        have first := ready.ops inner
        have second := first.append (first.2.op op)
        rwa [PanelOp.pins_of_sent sends, show op.sent? = some (dc, byte) from sends] at second
    | succ point =>
        have quiet := cut ⟨Nat.succ_pos point, early⟩
        rw [quiet, List.nil_append]
        exact ready.heldUp dc byte (Nat.succ_pos point) early quiet

/-- **One operation with another task in it.** -/
theorem Ready.preempted {s : Receiver} {pins : Pins} (ready : Ready s pins) (p : Preempted) :
    Transfers s pins p.pins p.received := by
  rw [Preempted.received]
  cases sends : p.op.sent? with
  | none =>
      have silent := PanelOp.pins_of_silent sends
      have notCut : ¬ p.Cut := by simp [Preempted.Cut, sends]
      have bytes : p.completed = sentBytes p.inner := by simp [Preempted.completed, sends]
      have front := ready.rst (p.op.pins.take p.point) fun pin member =>
        silent pin (List.mem_of_mem_take member)
      have middle := front.append (front.2.ops p.inner)
      have back := middle.append (middle.2.rst (p.op.pins.drop p.point) fun pin member =>
        silent pin (List.mem_of_mem_drop member))
      rw [if_neg notCut, bytes]
      rwa [List.nil_append, List.append_nil] at back
  | some sent =>
      obtain ⟨dc, byte⟩ := sent
      by_cases cut : p.Cut
      · have held : p.held = (msbFirst 8 byte).take ((p.point - 2) / 3) := by
          simp [Preempted.held, sends]
        rw [if_pos cut, held, Preempted.pins, PanelOp.pins_of_sent sends]
        exact ready.broken dc byte cut.2.1.1 cut.2.1.2 cut.2.2
      · rw [if_neg cut]
        exact ready.uncut sends cut

/-- What a run of preempted operations does to the pins. -/
def runPins (run : List Preempted) : List PinOp := run.flatMap Preempted.pins

theorem Ready.run {s : Receiver} {pins : Pins} (ready : Ready s pins) (run : List Preempted) :
    Transfers s pins (runPins run) (run.flatMap Preempted.received) := by
  induction run generalizing s pins with
  | nil => exact ⟨rfl, ready⟩
  | cons p rest ih =>
      have first := ready.preempted p
      exact first.append (ih first.2)

/-- A cut byte does not arrive. -/
theorem Preempted.length_received (p : Preempted) :
    p.received.length + (if p.Cut then 1 else 0) = p.completed.length := by
  by_cases cut : p.Cut
  · obtain ⟨sent, sends⟩ := Option.isSome_iff_exists.mp cut.1
    rw [if_pos cut, Preempted.received, if_pos cut, length_mixFirst, Preempted.completed,
      if_pos cut.2.1.2, List.length_append, sends]
    rfl
  · rw [if_neg cut, Preempted.received, if_neg cut, Nat.add_zero]

/-- The bytes that are lost are as many as the cuts. -/
theorem length_run (run : List Preempted) :
    (run.flatMap Preempted.received).length + run.countP (fun p => decide p.Cut) =
      (run.flatMap Preempted.completed).length := by
  induction run with
  | nil => rfl
  | cons p rest ih =>
      have here := p.length_received
      rw [List.flatMap_cons, List.flatMap_cons, List.length_append, List.length_append,
        List.countP_cons]
      simp only [decide_eq_true_eq]
      omega

/-- **The bytes of two tasks arrive, every one in its turn, if and only if no byte is cut**: the
panel reads one byte less for each cut. -/
theorem all_bytes_arrive_iff (run : List Preempted) {s : Receiver} {pins : Pins}
    (ready : Ready s pins) :
    (panelReceiver.trace s (sampled pins (runPins run))).length +
        run.countP (fun p => decide p.Cut) = (run.flatMap Preempted.completed).length ∧
      ((panelReceiver.trace s (sampled pins (runPins run))).map readByte =
          run.flatMap Preempted.completed ↔ ∀ p ∈ run, ¬ p.Cut) := by
  have reads := (ready.run run).1
  have count := length_run run
  have length := congrArg List.length reads
  rw [List.length_map] at length
  refine ⟨by rw [length]; exact count, ?_⟩
  rw [reads]
  constructor
  · intro same p member cut
    have some : 0 < run.countP (fun p => decide p.Cut) :=
      List.countP_pos_iff.mpr ⟨p, member, decide_eq_true cut⟩
    rw [same] at count
    omega
  · intro whole
    apply List.flatMap_congr
    intro p member
    rw [Preempted.received, if_neg (whole p member)]

/-- The refresh command, with a command of another task after three of its bits: one byte
arrives for the two. -/
theorem all_bytes_arrive_iff_cut :
    (panelReceiver.trace ⟨true, []⟩
      (sampled ⟨false, true, true, false, false⟩
        (runPins [⟨.writeCmd 0x12, 11, [.writeCmd 0x10]⟩]))).length + 1 = 2 := by
  have ready : Ready ⟨true, []⟩ ⟨false, true, true, false, false⟩ := ⟨rfl, rfl⟩
  exact (all_bytes_arrive_iff [⟨.writeCmd 0x12, 11, [.writeCmd 0x10]⟩] ready).1

end EinkLiteOS.Device
