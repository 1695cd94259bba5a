/-
# Device.Controller -- what the panel makes of its wires

Behind the receiver of `Device.EpdSpi` sits the panel's controller, a bought part that this
development knows by its command table only: `Datasheet` is what a controller must do for the
driver, and nothing is said of one that is used in any other way.  `chip` is the panel's end
of the wires, from pin changes to reset levels and bytes.

`Display` is the panel as the callers of `Device/EPD.c` think of it.  Whatever functions of the
driver are called, in whatever order the command table has an answer to, a controller shows at
the end of the wires what the display shows (`driver_refines`).
-/
import EinkLiteOS.Device.EpdSpi

namespace EinkLiteOS.Device

open EinkLiteOS.Theory EinkLiteOS.Theory.SerialBus

set_option autoImplicit false

/-! ## From the pins to the controller -/

/-- What happens on the wires: a pin is set, time passes, `EPD_CheckBusy` returns. -/
inductive WireEvent where
  | pin (op : PinOp)
  | delay (ms : Nat)
  | notBusy
  deriving DecidableEq, Repr

/-- What the controller notices: the level of `RST`, a byte with the level of `DC`, time, and
that it has been seen not to be busy. -/
inductive ChipEvent where
  | rst (high : Bool)
  | byte (dc : Bool) (byte : UInt8)
  | delay (ms : Nat)
  | notBusy
  deriving DecidableEq, Repr

/-- The change of `RST` a pin change is. -/
def rstBy : PinOp → List ChipEvent
  | .rst high => [.rst high]
  | _ => []

/-- The panel's end of the wires. -/
def chip : Transducer (Receiver × Pins) WireEvent ChipEvent where
  step s
    | .pin op =>
        let received := panelReceiver.step s.1 (op.drive s.2).lines
        ((received.1, op.drive s.2),
          rstBy op ++ received.2.map fun word => .byte word.1 (byteOf word.2))
    | .delay ms => (s, [.delay ms])
    | .notBusy => (s, [.notBusy])

/-- What an operation does on the wires. -/
def PanelOp.wires : PanelOp → List WireEvent
  | .delay ms => [.delay ms]
  | .checkBusy => [.notBusy]
  | op => op.pins.map .pin

/-- What an operation tells the controller. -/
def PanelOp.events : PanelOp → List ChipEvent
  | .rstClr => [.rst false]
  | .rstSet => [.rst true]
  | .delay ms => [.delay ms]
  | .checkBusy => [.notBusy]
  | .writeCmd cmd => [.byte false cmd]
  | .writeData _ data => [.byte true data]

def panelWires (ops : List PanelOp) : List WireEvent := ops.flatMap PanelOp.wires

def panelEvents (ops : List PanelOp) : List ChipEvent := ops.flatMap PanelOp.events

@[simp] theorem panelEvents_append (front back : List PanelOp) :
    panelEvents (front ++ back) = panelEvents front ++ panelEvents back := List.flatMap_append

theorem chip_pins_final (s : Receiver) (pins : Pins) (ops : List PinOp) :
    chip.final (s, pins) (ops.map .pin) =
      (panelReceiver.final s (sampled pins ops), driven pins ops) := by
  induction ops generalizing s pins with
  | nil => rfl
  | cons op rest ih => exact ih _ _

/-- While `RST` stands still the chip reads the bytes of the receiver. -/
theorem chip_pins_trace (s : Receiver) {ops : List PinOp} (still : ∀ high, .rst high ∉ ops)
    (pins : Pins) :
    chip.trace (s, pins) (ops.map .pin) =
      ((panelReceiver.trace s (sampled pins ops)).map readByte).map fun b => .byte b.1 b.2 := by
  induction ops generalizing s pins with
  | nil => rfl
  | cons op rest ih =>
      have here : rstBy op = [] := by
        cases op with
        | rst high => exact absurd List.mem_cons_self (still high)
        | _ => rfl
      have later : ∀ high, .rst high ∉ rest :=
        fun high member => still high (List.mem_cons_of_mem op member)
      rw [List.map_cons, Transducer.trace_cons, sampled, Transducer.trace_cons, List.map_append,
        List.map_append]
      refine congr (congrArg _ ?_) (ih _ later _)
      show rstBy op ++ _ = _
      rw [here, List.nil_append, List.map_map]
      rfl

theorem rst_notMem_writeByte (dc : Bool) (byte : UInt8) (high : Bool) :
    .rst high ∉ writeByte dc byte := by
  have loop : ∀ turns data, .rst high ∉ epdWriteLoop turns data := by
    intro turns
    induction turns with
    | zero => exact fun data => List.not_mem_nil
    | succ turns ih =>
        intro data
        simp [epdWriteLoop, ih]
  simp [writeByte, epdWrite, loop]

/-- A change of `RST` between two operations. -/
theorem chip_rst {s : Receiver} {pins : Pins} (ready : Ready s pins) (high : Bool) :
    chip.trace (s, pins) [.pin (.rst high)] = [.rst high] := by
  obtain ⟨-, silent, -⟩ := receive_rst ready.1 (fun _ => ready.2)
    (List.forall_mem_singleton.mpr ⟨high, rfl⟩ : ∀ pin ∈ [PinOp.rst high], ∃ h, pin = .rst h)
  have one : panelReceiver.trace s (sampled pins [.rst high]) =
      (panelReceiver.step s ((PinOp.rst high).drive pins).lines).2 := List.append_nil _
  show [ChipEvent.rst high] ++ (panelReceiver.step s ((PinOp.rst high).drive pins).lines).2.map
    (fun word => ChipEvent.byte word.1 (byteOf word.2)) ++ [] = _
  rw [← one, silent]
  rfl

/-- One operation, from wires between two operations. -/
theorem chip_op {s : Receiver} {pins : Pins} (ready : Ready s pins) (op : PanelOp) :
    chip.trace (s, pins) op.wires = op.events ∧
      chip.final (s, pins) op.wires =
        (panelReceiver.final s (sampled pins op.pins), driven pins op.pins) := by
  have bytes : (∀ high, .rst high ∉ op.pins) → chip.trace (s, pins) (op.pins.map .pin) =
      op.sent?.toList.map fun b => .byte b.1 b.2 := by
    intro still
    rw [chip_pins_trace s still, (ready.op op).1]
  cases op with
  | rstClr => exact ⟨chip_rst ready false, rfl⟩
  | rstSet => exact ⟨chip_rst ready true, rfl⟩
  | delay ms => exact ⟨rfl, rfl⟩
  | checkBusy => exact ⟨rfl, rfl⟩
  | writeCmd cmd => exact ⟨bytes (rst_notMem_writeByte false cmd), chip_pins_final s pins _⟩
  | writeData kind data => exact ⟨bytes (rst_notMem_writeByte true data), chip_pins_final s pins _⟩

/-- **The chip notices the operations**, one after the other. -/
theorem chip_ops {s : Receiver} {pins : Pins} (ready : Ready s pins) (ops : List PanelOp) :
    chip.trace (s, pins) (panelWires ops) = panelEvents ops := by
  induction ops generalizing s pins with
  | nil => rfl
  | cons op rest ih =>
      have split : panelWires (op :: rest) = op.wires ++ panelWires rest := List.flatMap_cons
      obtain ⟨trace, final⟩ := chip_op ready op
      rw [split, Transducer.trace_append, trace, final, ih (ready.op op).2]
      rfl

/-! ## The command table -/

section Sheet

variable {σ : Type}

/-- The events lead the controller to a state of `P`; on the way it shows these pictures. -/
def Leads (controller : Transducer σ ChipEvent (List UInt8)) (c : σ) (events : List ChipEvent)
    (shown : List (List UInt8)) (P : σ → Prop) : Prop :=
  controller.trace c events = shown ∧ P (controller.final c events)

/-- What the command table promises of a controller: the states it tells apart, and where its
commands lead.  Every command is given with its parameters and the wait behind it. -/
structure Datasheet (controller : Transducer σ ChipEvent (List UInt8)) where
  /-- In deep sleep. -/
  Asleep : σ → Prop
  /-- Awake, the power stage off. -/
  Standby : σ → Prop
  /-- Powered, and no picture begun. -/
  Powered : σ → Prop
  /-- Powered, and these bytes of a picture received. -/
  Receiving : List UInt8 → σ → Prop
  /-- A reset by the pin wakes the controller, in whatever state it is; the pin is held low for
  10 ms and left high for as long. -/
  reset (c : σ) (before : Nat) {low high : Nat} (lowLong : 10 ≤ low) (highLong : 10 ≤ high) :
    Leads controller c
      [.delay before, .rst false, .delay low, .rst true, .delay high, .notBusy] [] Standby
  /-- The settings of the two initialisations. -/
  setting {c : σ} (standby : Standby c) {cmd : UInt8} (isSetting : cmd ∈ [0xE9, 0xe0])
    (data : UInt8) : Leads controller c [.byte false cmd, .byte true data] [] Standby
  powerOn {c : σ} (standby : Standby c) :
    Leads controller c [.byte false 0x04, .notBusy] [] Powered
  dataStart {c : σ} (on : Powered c ∨ ∃ bytes, Receiving bytes c) :
    Leads controller c [.byte false 0x10] [] (Receiving [])
  /-- There is room for one picture. -/
  data {c : σ} {bytes : List UInt8} (receiving : Receiving bytes c)
    (room : bytes.length < epdBufferSize) (byte : UInt8) :
    Leads controller c [.byte true byte] [] (Receiving (bytes ++ [byte]))
  /-- A whole picture is shown. -/
  refresh {c : σ} {bytes : List UInt8} (receiving : Receiving bytes c)
    (whole : bytes.length = epdBufferSize) :
    Leads controller c [.byte false 0x12, .byte true 0x00, .notBusy] [bytes] Powered
  powerOff {c : σ} (on : Powered c ∨ ∃ bytes, Receiving bytes c) :
    Leads controller c [.byte false 0x02, .byte true 0x00, .notBusy] [] Standby
  deepSleep {c : σ} (standby : Standby c) :
    Leads controller c [.byte false 0x07, .byte true 0xA5] [] Asleep
  /-- In deep sleep nothing but the reset pin is noticed. -/
  asleep {c : σ} (asleep : Asleep c) {event : ChipEvent} (still : ∀ high, event ≠ .rst high) :
    Leads controller c [event] [] Asleep

variable {controller : Transducer σ ChipEvent (List UInt8)}

theorem Leads.append {c : σ} {front back : List ChipEvent} {shown shown' : List (List UInt8)}
    {P Q : σ → Prop} (first : Leads controller c front shown P)
    (second : ∀ {c'}, P c' → Leads controller c' back shown' Q) :
    Leads controller c (front ++ back) (shown ++ shown') Q := by
  obtain ⟨trace, reached⟩ := second first.2
  refine ⟨?_, ?_⟩
  · rw [Transducer.trace_append, first.1, trace]
  · rw [Transducer.final_append]
    exact reached

namespace Datasheet

variable (sheet : Datasheet controller)

/-- The power is on. -/
def On (c : σ) : Prop := sheet.Powered c ∨ ∃ bytes, sheet.Receiving bytes c

/-- The bytes of a picture, as far as there is room. -/
theorem picture {c : σ} {bytes : List UInt8} (receiving : sheet.Receiving bytes c)
    (more : List UInt8) (room : (bytes ++ more).length ≤ epdBufferSize) :
    Leads controller c (more.map (.byte true)) [] (sheet.Receiving (bytes ++ more)) := by
  induction more generalizing c bytes with
  | nil =>
      rw [List.append_nil]
      exact ⟨rfl, receiving⟩
  | cons byte rest ih =>
      have here : bytes.length < epdBufferSize := by
        rw [List.length_append, List.length_cons] at room
        omega
      rw [List.append_cons] at room ⊢
      exact (sheet.data receiving here byte).append fun received => ih received room

/-- Both initialisations, from any state. -/
theorem wake (c : σ) (before : Nat) {low high : Nat} (lowLong : 10 ≤ low) (highLong : 10 ≤ high)
    {cmd : UInt8} (isSetting : cmd ∈ [0xE9, 0xe0]) (data : UInt8) :
    Leads controller c ([.delay before, .rst false, .delay low, .rst true, .delay high, .notBusy] ++
      ([.byte false cmd, .byte true data] ++ [.byte false 0x04, .notBusy])) [] sheet.Powered :=
  (sheet.reset c before lowLong highLong).append fun standby =>
    (sheet.setting standby isSetting data).append fun set => sheet.powerOn set

/-- A whole picture, sent and shown. -/
theorem whole {c : σ} (on : sheet.On c) {bytes : List UInt8}
    (size : bytes.length = epdBufferSize) :
    Leads controller c ([.byte false 0x10] ++ (bytes.map (.byte true) ++
      [.byte false 0x12, .byte true 0x00, .notBusy])) [bytes] sheet.Powered :=
  (sheet.dataStart on).append fun started =>
    (sheet.picture started bytes (Nat.le_of_eq size)).append fun received =>
      sheet.refresh received size

theorem sleep {c : σ} (on : sheet.On c) :
    Leads controller c ([.byte false 0x02, .byte true 0x00, .notBusy] ++
      [.byte false 0x07, .byte true 0xA5]) [] sheet.Asleep :=
  (sheet.powerOff on).append fun standby => sheet.deepSleep standby

/-- Nothing but an initialisation reaches a controller in deep sleep. -/
theorem sleepsOn {c : σ} (asleep : sheet.Asleep c) {events : List ChipEvent}
    (still : ∀ high, .rst high ∉ events) : Leads controller c events [] sheet.Asleep := by
  induction events generalizing c with
  | nil => exact ⟨rfl, asleep⟩
  | cons event rest ih =>
      have here : ∀ high, event ≠ .rst high := fun high same => still high (same ▸ List.mem_cons_self)
      exact (sheet.asleep asleep here).append fun sleeps =>
        ih sleeps fun high member => still high (List.mem_cons_of_mem event member)

end Datasheet

end Sheet

/-! ## The driver -/

/-- `EPD_Init` -/
def epdInit : List PanelOp :=
  [.delay 20, .rstClr, .delay 40, .rstSet, .delay 50, .checkBusy,
    .writeCmd 0xE9, .writeData .param 0x01, .writeCmd 0x04, .checkBusy]

/-- The byte `EPD_Clean` fills the panel with. -/
def cleanData (color : UInt8) : UInt8 :=
  if color = epdColorWhite then 0x55
  else if color = epdColorBlack then 0x00
  else if color = epdColorYellow then 0xaa
  else if color = epdColorRed then 0xff
  else 0x00

/-- `EPD_Clean` -/
def epdClean (color : UInt8) : List PanelOp :=
  [.writeCmd 0x10] ++ List.replicate epdBufferSize (.writeData .image (cleanData color)) ++ epdUpdate

/-- A call of a function of `Device/EPD.c`. -/
inductive DriverCall where
  | init
  | initFast
  | clean (color : UInt8)
  | displayImage (picData : Vector UInt8 epdBufferSize)
  | displayImageParagraph (picData : List UInt8) (number : UInt8)
  | update
  | sleep

def DriverCall.ops : DriverCall → List PanelOp
  | init => epdInit
  | initFast => epdInitFast
  | clean color => epdClean color
  | displayImage picData => epdDisplayImage picData
  | displayImageParagraph picData number => epdDisplayImageParagraph picData number
  | update => epdUpdate
  | sleep => epdSleep

/-- What some calls do to the panel. -/
def driverOps (calls : List DriverCall) : List PanelOp := calls.flatMap DriverCall.ops

/-! ## The display -/

/-- The panel as the callers of the driver think of it. -/
inductive Display where
  /-- It has never been initialised. -/
  | unknown
  | asleep
  | on
  /-- A picture has begun. -/
  | sending (picture : List UInt8)
  deriving DecidableEq, Repr

/-- A part of a picture is sent, if there is room for it. -/
def Display.send (picture : List UInt8) : Option (Display × List (List UInt8)) :=
  if picture.length ≤ epdBufferSize then some (.sending picture, []) else none

/-- What a call does to the display and the pictures it shows.  It is `none` where the command
table has no answer: an unknown display, a part of a picture that has not begun or is too long,
the refresh of a picture that is not whole. -/
def Display.call : Display → DriverCall → Option (Display × List (List UInt8))
  | _, .init | _, .initFast => some (.on, [])
  | .unknown, _ => none
  | .asleep, _ => some (.asleep, [])
  | _, .clean color => some (.on, [List.replicate epdBufferSize (cleanData color)])
  | _, .displayImage picData => some (.on, [picData.toList])
  | .on, .displayImageParagraph picData number => if number = 1 then send picData else none
  | .sending picture, .displayImageParagraph picData number =>
      if number = 1 then send picData else send (picture ++ picData)
  | .on, .update => none
  | .sending picture, .update =>
      if picture.length = epdBufferSize then some (.on, [picture]) else none
  | _, .sleep => some (.asleep, [])

/-- The display, call after call. -/
def Display.calls : Display → List DriverCall → Option (Display × List (List UInt8))
  | d, [] => some (d, [])
  | d, call :: rest => do
      let (next, shown) ← d.call call
      let (last, later) ← next.calls rest
      return (last, shown ++ later)

theorem Display.calls_singleton {d : Display} {call : DriverCall}
    {next : Display × List (List UInt8)} (called : d.call call = some next) :
    d.calls [call] = some next := by
  obtain ⟨d', shown⟩ := next
  rw [Display.calls, called]
  simp [Display.calls]

theorem Display.calls_append {d next last : Display} {front back : List DriverCall}
    {shown later : List (List UInt8)} (first : d.calls front = some (next, shown))
    (second : next.calls back = some (last, later)) :
    d.calls (front ++ back) = some (last, shown ++ later) := by
  induction front generalizing d shown with
  | nil =>
      obtain ⟨rfl, rfl⟩ := Prod.mk.inj (Option.some.inj first)
      exact second
  | cons call rest ih =>
      rw [Display.calls] at first
      obtain ⟨⟨middle, here⟩, called, first⟩ := Option.bind_eq_some_iff.mp first
      obtain ⟨⟨next', there⟩, rests, same⟩ := Option.bind_eq_some_iff.mp first
      obtain ⟨rfl, rfl⟩ := Prod.mk.inj (Option.some.inj same)
      rw [List.cons_append, Display.calls, called]
      simp only [Option.bind_eq_bind, Option.bind_some, ih rests, List.append_assoc]
      rfl

/-! ## The driver, call after call -/

theorem panelEvents_sendImage (picData : List UInt8) :
    panelEvents (sendImage picData) = picData.map (.byte true) := by
  induction picData with
  | nil => rfl
  | cons data rest ih =>
      rw [List.map_cons, ← ih, sendImage, sendImage, List.map_cons, panelEvents,
        List.flatMap_cons, PanelOp.events, recombine_eq]
      rfl

theorem panelEvents_epdClean (color : UInt8) :
    panelEvents (epdClean color) = [.byte false 0x10] ++
      ((List.replicate epdBufferSize (cleanData color)).map (.byte true) ++
        [.byte false 0x12, .byte true 0x00, .notBusy]) := by
  have fill : panelEvents (List.replicate epdBufferSize
      (PanelOp.writeData .image (cleanData color))) =
        (List.replicate epdBufferSize (cleanData color)).map (.byte true) := by
    rw [panelEvents, List.flatMap_replicate, List.map_replicate]
    simp [PanelOp.events]
  rw [epdClean, panelEvents_append, panelEvents_append, fill, List.append_assoc]
  rfl

theorem panelEvents_epdDisplayImage (picData : Vector UInt8 epdBufferSize) :
    panelEvents (epdDisplayImage picData) = [.byte false 0x10] ++
      (picData.toList.map (.byte true) ++ [.byte false 0x12, .byte true 0x00, .notBusy]) := by
  rw [epdDisplayImage, panelEvents_append, panelEvents_append, panelEvents_sendImage,
    List.append_assoc]
  rfl

theorem panelEvents_paragraph (picData : List UInt8) (number : UInt8) :
    panelEvents (epdDisplayImageParagraph picData number) =
      (if number = 1 then [.byte false 0x10] else []) ++ picData.map (.byte true) := by
  rw [epdDisplayImageParagraph, panelEvents_append, panelEvents_sendImage]
  split <;> rfl

/-- Only an initialisation touches the reset pin. -/
theorem rst_notMem_events {call : DriverCall} (notInit : call ≠ .init)
    (notInitFast : call ≠ .initFast) (high : Bool) : .rst high ∉ panelEvents call.ops := by
  cases call with
  | init => exact absurd rfl notInit
  | initFast => exact absurd rfl notInitFast
  | clean color => simp [DriverCall.ops, panelEvents_epdClean]
  | displayImage picData => simp [DriverCall.ops, panelEvents_epdDisplayImage]
  | displayImageParagraph picData number =>
      rw [DriverCall.ops, panelEvents_paragraph]
      split <;> simp
  | update => simp [DriverCall.ops, panelEvents, epdUpdate, PanelOp.events]
  | sleep => simp [DriverCall.ops, panelEvents, epdSleep, PanelOp.events]

section Refinement

variable {σ : Type} {controller : Transducer σ ChipEvent (List UInt8)}
  (sheet : Datasheet controller)

/-- The controller between two calls, and the display. -/
def Datasheet.Presents : Display → σ → Prop
  | .unknown, _ => True
  | .asleep, c => sheet.Asleep c
  | .on, c => sheet.Powered c
  | .sending picture, c => sheet.Receiving picture c

/-- A part of a picture that the display takes. -/
theorem Datasheet.part {c : σ} {bytes : List UInt8} (receiving : sheet.Receiving bytes c)
    (more : List UInt8) {next : Display × List (List UInt8)}
    (sent : Display.send (bytes ++ more) = some next) :
    Leads controller c (more.map (.byte true)) next.2 (sheet.Presents next.1) := by
  rw [Display.send] at sent
  split at sent
  case isTrue room =>
    obtain rfl := Option.some.inj sent
    exact sheet.picture receiving more room
  case isFalse => cases sent

/-- The first part of a picture. -/
theorem Datasheet.firstPart {c : σ} (on : sheet.On c) (bytes : List UInt8)
    {next : Display × List (List UInt8)} (sent : Display.send bytes = some next) :
    Leads controller c ([.byte false 0x10] ++ bytes.map (.byte true)) next.2
      (sheet.Presents next.1) := by
  have first := (sheet.dataStart on).append fun started => sheet.part started bytes sent
  rwa [List.nil_append] at first

theorem Datasheet.init (c : σ) : Leads controller c (panelEvents epdInit) [] sheet.Powered :=
  sheet.wake c 20 (by decide) (by decide) (by decide) 0x01

theorem Datasheet.initFast (c : σ) :
    Leads controller c (panelEvents epdInitFast) [] sheet.Powered :=
  sheet.wake c 100 (by decide) (by decide) (by decide) 0x02

theorem Datasheet.clean {c : σ} (on : sheet.On c) (color : UInt8) :
    Leads controller c (panelEvents (epdClean color))
      [List.replicate epdBufferSize (cleanData color)] sheet.Powered := by
  rw [panelEvents_epdClean]
  exact sheet.whole on List.length_replicate

theorem Datasheet.displayImage {c : σ} (on : sheet.On c)
    (picData : Vector UInt8 epdBufferSize) :
    Leads controller c (panelEvents (epdDisplayImage picData)) [picData.toList] sheet.Powered := by
  rw [panelEvents_epdDisplayImage]
  exact sheet.whole on picData.length_toList

/-- A call on a display that is on, with no picture begun. -/
theorem Datasheet.callOn {c : σ} (powered : sheet.Powered c) {call : DriverCall}
    {next : Display × List (List UInt8)} (called : Display.on.call call = some next) :
    Leads controller c (panelEvents call.ops) next.2 (sheet.Presents next.1) := by
  have on : sheet.On c := Or.inl powered
  cases call with
  | init =>
      obtain rfl := Option.some.inj called
      exact sheet.init c
  | initFast =>
      obtain rfl := Option.some.inj called
      exact sheet.initFast c
  | clean color =>
      obtain rfl := Option.some.inj called
      exact sheet.clean on color
  | displayImage picData =>
      obtain rfl := Option.some.inj called
      exact sheet.displayImage on picData
  | displayImageParagraph picData number =>
      rw [Display.call] at called
      rw [DriverCall.ops, panelEvents_paragraph]
      split at called
      case isTrue first =>
        rw [if_pos first]
        exact sheet.firstPart on picData called
      case isFalse => cases called
  | update => cases called
  | sleep =>
      obtain rfl := Option.some.inj called
      exact sheet.sleep on

/-- A call on a display that has begun a picture. -/
theorem Datasheet.callSending {c : σ} {picture : List UInt8}
    (receiving : sheet.Receiving picture c) {call : DriverCall}
    {next : Display × List (List UInt8)} (called : (Display.sending picture).call call = some next) :
    Leads controller c (panelEvents call.ops) next.2 (sheet.Presents next.1) := by
  have on : sheet.On c := Or.inr ⟨picture, receiving⟩
  cases call with
  | init =>
      obtain rfl := Option.some.inj called
      exact sheet.init c
  | initFast =>
      obtain rfl := Option.some.inj called
      exact sheet.initFast c
  | clean color =>
      obtain rfl := Option.some.inj called
      exact sheet.clean on color
  | displayImage picData =>
      obtain rfl := Option.some.inj called
      exact sheet.displayImage on picData
  | displayImageParagraph picData number =>
      rw [Display.call] at called
      rw [DriverCall.ops, panelEvents_paragraph]
      split at called
      case isTrue first =>
        rw [if_pos first]
        exact sheet.firstPart on picData called
      case isFalse later =>
        rw [if_neg later, List.nil_append]
        exact sheet.part receiving picData called
  | update =>
      rw [Display.call] at called
      split at called
      case isTrue whole =>
        obtain rfl := Option.some.inj called
        exact sheet.refresh receiving whole
      case isFalse => cases called
  | sleep =>
      obtain rfl := Option.some.inj called
      exact sheet.sleep on

/-- A call on a display in deep sleep. -/
theorem Datasheet.callAsleep {c : σ} (asleep : sheet.Asleep c) {call : DriverCall}
    {next : Display × List (List UInt8)} (called : Display.asleep.call call = some next) :
    Leads controller c (panelEvents call.ops) next.2 (sheet.Presents next.1) := by
  cases call with
  | init =>
      obtain rfl := Option.some.inj called
      exact sheet.init c
  | initFast =>
      obtain rfl := Option.some.inj called
      exact sheet.initFast c
  | clean | displayImage | displayImageParagraph | update | sleep =>
      obtain rfl := Option.some.inj called
      exact sheet.sleepsOn asleep (rst_notMem_events nofun nofun)

/-- **One call of the driver.** -/
theorem Datasheet.call {c : σ} {d : Display} (presents : sheet.Presents d c) {call : DriverCall}
    {next : Display × List (List UInt8)} (called : d.call call = some next) :
    Leads controller c (panelEvents call.ops) next.2 (sheet.Presents next.1) := by
  cases d with
  | unknown =>
      cases call with
      | init =>
          obtain rfl := Option.some.inj called
          exact sheet.init c
      | initFast =>
          obtain rfl := Option.some.inj called
          exact sheet.initFast c
      | clean | displayImage | displayImageParagraph | update | sleep => cases called
  | asleep => exact sheet.callAsleep presents called
  | on => exact sheet.callOn presents called
  | sending picture => exact sheet.callSending presents called

theorem Datasheet.calls {c : σ} {d d' : Display} (presents : sheet.Presents d c)
    {calls : List DriverCall} {shown : List (List UInt8)}
    (called : d.calls calls = some (d', shown)) :
    Leads controller c (panelEvents (driverOps calls)) shown (sheet.Presents d') := by
  induction calls generalizing c d shown with
  | nil =>
      obtain ⟨rfl, rfl⟩ := Prod.mk.inj (Option.some.inj called)
      exact ⟨rfl, presents⟩
  | cons call rest ih =>
      rw [Display.calls] at called
      obtain ⟨⟨next, here⟩, first, called⟩ := Option.bind_eq_some_iff.mp called
      obtain ⟨⟨last, later⟩, rests, same⟩ := Option.bind_eq_some_iff.mp called
      obtain ⟨rfl, rfl⟩ := Prod.mk.inj (Option.some.inj same)
      have split : driverOps (call :: rest) = call.ops ++ driverOps rest := List.flatMap_cons
      rw [split, panelEvents_append]
      exact (sheet.call presents first).append fun presented => ih presented rests

/-- **The driver drives a display**: whatever its functions are called with, in whatever order
the command table has an answer to, a panel at the end of the wires shows what the display
shows, picture by picture. -/
theorem driver_refines {s : Receiver} {pins : Pins} (ready : Ready s pins) {c : σ}
    {d d' : Display} (presents : sheet.Presents d c) {calls : List DriverCall}
    {shown : List (List UInt8)} (called : d.calls calls = some (d', shown)) :
    Leads controller c (chip.trace (s, pins) (panelWires (driverOps calls))) shown
      (sheet.Presents d') := by
  rw [chip_ops ready]
  exact sheet.calls presents called

end Refinement

/-! ## A controller -/

/-- The state of a controller that keeps to the command table: awake or in deep sleep, its power
stage, the command whose data follows, and the picture memory. -/
structure Controller where
  awake : Bool
  powered : Bool
  command : UInt8
  ram : List UInt8
  deriving DecidableEq, Repr

def Controller.run (c : Controller) (cmd : UInt8) : Controller × List (List UInt8) :=
  if cmd = 0x04 then ({ c with powered := true, command := cmd }, [])
  else if cmd = 0x02 then ({ c with powered := false, command := cmd }, [])
  else if cmd = 0x10 then ({ c with ram := [], command := cmd }, [])
  else if cmd = 0x12 then ({ c with command := cmd }, if c.powered then [c.ram] else [])
  else ({ c with command := cmd }, [])

def Controller.take (c : Controller) (data : UInt8) : Controller :=
  if c.command = 0x10 then { c with ram := c.ram ++ [data] }
  else if c.command = 0x07 ∧ data = 0xA5 then { c with awake := false }
  else c

def simpleController : Transducer Controller ChipEvent (List UInt8) where
  step c
    | .rst false => ({ c with awake := true, powered := false, command := 0 }, [])
    | .rst true | .delay _ | .notBusy => (c, [])
    | .byte false cmd => if c.awake then c.run cmd else (c, [])
    | .byte true data => if c.awake then (c.take data, []) else (c, [])

/-- The command table can be met. -/
def simpleDatasheet : Datasheet simpleController where
  Asleep c := c.awake = false
  Standby c := c.awake = true
  Powered c := c.awake = true ∧ c.powered = true
  Receiving bytes c := c.awake = true ∧ c.powered = true ∧ c.command = 0x10 ∧ c.ram = bytes
  reset _ _ _ _ _ _ := ⟨rfl, rfl⟩
  setting {c} standby cmd isSetting data := by
    obtain ⟨awake, powered, command, ram⟩ := c
    cases standby
    rcases List.mem_cons.mp isSetting with rfl | isSetting
    · exact ⟨rfl, rfl⟩
    · obtain rfl := List.mem_singleton.mp isSetting
      exact ⟨rfl, rfl⟩
  powerOn {c} standby := by
    obtain ⟨awake, powered, command, ram⟩ := c
    cases standby
    exact ⟨rfl, rfl, rfl⟩
  dataStart {c} on := by
    have powered : c.awake = true ∧ c.powered = true := by
      rcases on with powered | ⟨_, awake, powered, -⟩
      · exact powered
      · exact ⟨awake, powered⟩
    obtain ⟨awake, powered, command, ram⟩ := c
    obtain ⟨rfl, rfl⟩ := powered
    exact ⟨rfl, rfl, rfl, rfl, rfl⟩
  data {c bytes} receiving _ byte := by
    obtain ⟨awake, powered, command, ram⟩ := c
    obtain ⟨rfl, rfl, rfl, rfl⟩ := receiving
    exact ⟨rfl, rfl, rfl, rfl, rfl⟩
  refresh {c bytes} receiving _ := by
    obtain ⟨awake, powered, command, ram⟩ := c
    obtain ⟨rfl, rfl, rfl, rfl⟩ := receiving
    exact ⟨rfl, rfl, rfl⟩
  powerOff {c} on := by
    have awake : c.awake = true := by
      rcases on with ⟨awake, -⟩ | ⟨_, awake, -⟩ <;> exact awake
    obtain ⟨awake, powered, command, ram⟩ := c
    cases awake
    exact ⟨rfl, rfl⟩
  deepSleep {c} standby := by
    obtain ⟨awake, powered, command, ram⟩ := c
    cases standby
    exact ⟨rfl, rfl⟩
  asleep {c} asleep event still := by
    obtain ⟨awake, powered, command, ram⟩ := c
    cases asleep
    cases event with
    | rst high => exact absurd rfl (still high)
    | byte dc byte =>
        cases dc
        · exact ⟨rfl, rfl⟩
        · exact ⟨rfl, rfl⟩
    | delay ms => exact ⟨rfl, rfl⟩
    | notBusy => exact ⟨rfl, rfl⟩

/-- A white screen, and a part of a picture that comes too late. -/
theorem driver_refines_clean :
    simpleController.trace ⟨false, false, 0, []⟩
      (chip.trace (⟨false, []⟩, ⟨false, false, true, false, false⟩) (panelWires (driverOps
        [.init, .clean 0x01, .sleep, .displayImageParagraph [0xff] 1, .update]))) =
      [List.replicate epdBufferSize 0x55] := by
  have ready : Ready ⟨false, []⟩ ⟨false, false, true, false, false⟩ := ⟨rfl, rfl⟩
  have called : Display.unknown.calls
      [.init, .clean 0x01, .sleep, .displayImageParagraph [0xff] 1, .update] =
        some (.asleep, [List.replicate epdBufferSize 0x55]) := rfl
  have unknown : simpleDatasheet.Presents .unknown ⟨false, false, 0, []⟩ := trivial
  exact (driver_refines simpleDatasheet ready unknown called).1

end EinkLiteOS.Device
