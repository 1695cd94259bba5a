/-
# User.PanelSharing -- two threads and one panel

The Eink thread shows a picture on a button press, and the WiFi thread sends packets
as they come.  Nothing locks the panel: the WiFi thread, which has the higher
priority, may run between any two operations of the Eink thread, and the Eink thread
between two packets.  Every operation that reaches the panel is a message tagged with
its source, the button press or the transfer it belongs to.  A frame does not say
which picture of the sender it is a part of, so a move that hands one over does, and
the threads never look at it; packets of different totals are of different transfers
in any case.

`reset_in_a_transfer` is a button press in the middle of a transfer.  `Exclusive` is
what the threads would have to keep to between a data start and its refresh, and
nowhere else, and `never_mixed` that no picture is mixed then, however the threads
take turns.
-/
import EinkLiteOS.Theory.Monitor
import EinkLiteOS.Theory.Runs
import EinkLiteOS.User.ThreadWifi

namespace EinkLiteOS.User

open EinkLiteOS.Theory
open EinkLiteOS.Device

set_option autoImplicit false

/-- What a message to the panel belongs to. -/
inductive Source where
  | button (press : Nat)
  | transfer (image : Nat) (total : UInt8)
  deriving DecidableEq, Repr

/-- The source belongs to the Eink thread. -/
def Source.isButton : Source → Bool
  | .button _ => true
  | .transfer _ _ => false

structure Message where
  source : Source
  op : PanelOp
  deriving DecidableEq, Repr

/-- A message that has no place in the picture of `s`: a data byte that is not its
own, or a reset, a sleep or a data start of the other thread. -/
def Disturbs (s : Source) (m : Message) : Prop :=
  m.op.isData ∧ m.source ≠ s ∨
    m.source.isButton ≠ s.isButton ∧
      m.op ∈ [.rstClr, .rstSet, .writeCmd 0x02, .writeCmd 0x07, .writeCmd 0x10]

instance (s : Source) (m : Message) : Decidable (Disturbs s m) :=
  inferInstanceAs (Decidable (_ ∧ _ ∨ _ ∧ _))

/-- **No picture is mixed**: between a data start and the refresh that shows it, no
message disturbs.  A thread that starts anew in between gives its first picture up. -/
def NeverMixed (sent : List Message) : Prop :=
  ∀ s t before between after,
    sent = before ++ ⟨s, .writeCmd 0x10⟩ :: (between ++ ⟨t, .writeCmd 0x12⟩ :: after) →
    (∀ m ∈ between, m.op ≠ .writeCmd 0x12) →
    (∀ m ∈ between, m.op = .writeCmd 0x10 → m.source.isButton ≠ s.isButton) →
    ∀ m ∈ between, ¬ Disturbs s m

/-! ## The window of a picture -/

/-- Between a data start and its refresh: whose picture it is, and whether a data byte
that is not its own has come. -/
inductive Window where
  | closed
  | whole (s : Source)
  | spoiled (s : Source)
  deriving DecidableEq, Repr

namespace Window

def source? : Window → Option Source
  | .closed => none
  | .whole s | .spoiled s => some s

/-- The window after a message. -/
def next (w : Window) (m : Message) : Window :=
  if m.op = .writeCmd 0x10 then .whole m.source
  else if m.op = .writeCmd 0x12 then .closed
  else
    match w with
    | .closed => .closed
    | .whole s => if m.op.isData ∧ m.source ≠ s then .spoiled s else .whole s
    | .spoiled s => .spoiled s

/-- The other thread does not disturb, and no spoiled picture is shown. -/
def Ok (w : Window) (m : Message) : Prop :=
  (∀ s ∈ w.source?, m.source.isButton ≠ s.isButton → ¬ Disturbs s m) ∧
    (m.op = .writeCmd 0x12 → ∀ s, w ≠ .spoiled s)

end Window

def windows : Monitor Window Message := ⟨Window.next, Window.Ok⟩

/-! ## The two threads -/

/-- The operations both threads have left, the static `last_packet`, and the history:
the number of the last press, the transfer of the packet handed over last, and the
messages sent. -/
structure Sharing where
  eink : List PanelOp
  wifi : List PanelOp
  lastPacket : UInt8
  press : Nat
  image : Nat
  total : UInt8
  sent : List Message

/-- Both threads wait. -/
def Sharing.init : Sharing := ⟨[], [], 0, 0, 0, 0, []⟩

/-- The window the panel is in. -/
def Sharing.window (s : Sharing) : Window := windows.after .closed s.sent

/-- What can happen next. -/
inductive Move where
  /-- The Eink thread finds a button pressed. -/
  | press (picture : Vector UInt8 epdBufferSize)
  /-- The Eink thread goes on. -/
  | eink
  /-- The WiFi thread is handed a frame, which is of the sender's picture `image`. -/
  | frame (image : Nat) (f : CheckedFrame)
  /-- The WiFi thread goes on. -/
  | wifi

/-- One move.  The Eink thread runs only while the WiFi thread waits. -/
def move (s : Sharing) : Move → Option Sharing
  | .press picture =>
      if s.wifi = [] ∧ s.eink = [] then
        some { s with
          eink := epdInitFast ++ epdDisplayImage picture ++ epdSleep
          press := s.press + 1 }
      else none
  | .eink =>
      match s.wifi, s.eink with
      | [], op :: rest =>
          some { s with eink := rest, sent := s.sent ++ [⟨.button s.press, op⟩] }
      | _, _ => none
  | .frame image f =>
      if s.wifi = [] then
        let processed := processFrame s.lastPacket f.data
        some { s with
          wifi := panelOps processed.2
          lastPacket := processed.1
          image := image
          total := f.totalPackets }
      else none
  | .wifi =>
      match s.wifi with
      | op :: rest =>
          some { s with wifi := rest, sent := s.sent ++ [⟨.transfer s.image s.total, op⟩] }
      | [] => none

/-- What may happen next while the picture of the first argument is between its data
start and its refresh.  If it is a button's, no image packet is processed; if it is a
transfer's, no other packet than one of that transfer or a packet 1, and the Eink
thread does nothing that disturbs it. -/
def Allowed : Option Source → Sharing → Move → Prop
  | some (.button _), _, .frame _ f => f.packet?.isNone
  | some (.transfer image' total), _, .frame image f =>
      ∀ p ∈ f.packet?, p.num = 1 ∨ image = image' ∧ p.total = total
  | some (.transfer image total), s, .eink =>
      ∀ op ∈ s.eink.head?, ¬ Disturbs (.transfer image total) ⟨.button s.press, op⟩
  | _, _, _ => True

instance : (source : Option Source) → (s : Sharing) → (m : Move) →
    Decidable (Allowed source s m)
  | some (.button _), _, .frame _ f => inferInstanceAs (Decidable (f.packet?.isNone = true))
  | some (.transfer image' total), _, .frame image f =>
      inferInstanceAs (Decidable (∀ p ∈ f.packet?, p.num = 1 ∨ image = image' ∧ p.total = total))
  | some (.transfer image total), s, .eink =>
      inferInstanceAs (Decidable (∀ op ∈ s.eink.head?,
        ¬ Disturbs (.transfer image total) ⟨.button s.press, op⟩))
  | none, _, _ | some (.button _), _, .press _ | some (.button _), _, .eink |
    some (.button _), _, .wifi | some (.transfer _ _), _, .press _ |
    some (.transfer _ _), _, .wifi => isTrue trivial

/-- Only between a data start and its refresh do the threads have to keep apart. -/
def Exclusive (s : Sharing) (m : Move) : Prop := Allowed s.window.source? s m

instance (s : Sharing) (m : Move) : Decidable (Exclusive s m) :=
  inferInstanceAs (Decidable (Allowed _ _ _))

/-! ## Accepted messages -/

/-- A message that is no refresh, and no data start of the same thread, leaves the
window to its picture; the picture stays whole only if the message does not disturb. -/
theorem next_sourced {s : Source} {w : Window} {m : Message} (sourced : w.source? = some s)
    (ok : w.Ok m) (noRefresh : m.op ≠ .writeCmd 0x12)
    (noRestart : m.op = .writeCmd 0x10 → m.source.isButton ≠ s.isButton) :
    (w.next m).source? = some s ∧ (w.next m = .whole s → w = .whole s ∧ ¬ Disturbs s m) := by
  have noStart : m.op ≠ .writeCmd 0x10 := by
    intro start
    refine ok.1 s sourced (noRestart start) (Or.inr ⟨noRestart start, ?_⟩)
    simp [start]
  have calm : ¬ (m.op.isData ∧ m.source ≠ s) → ¬ Disturbs s m := by
    rintro own (foreign | ⟨other, op⟩)
    · exact own foreign
    · exact ok.1 s sourced other (Or.inr ⟨other, op⟩)
  unfold Window.next
  rw [if_neg noStart, if_neg noRefresh]
  cases w with
  | closed => cases sourced
  | whole s' =>
      obtain rfl := Option.some.inj sourced
      dsimp only
      by_cases foreign : m.op.isData ∧ m.source ≠ s'
      · rw [if_pos foreign]
        exact ⟨rfl, nofun⟩
      · rw [if_neg foreign]
        exact ⟨rfl, fun _ => ⟨rfl, calm foreign⟩⟩
  | spoiled s' =>
      obtain rfl := Option.some.inj sourced
      exact ⟨rfl, nofun⟩

/-- A run of such messages. -/
theorem after_sourced {s : Source} {between : List Message} {w : Window}
    (sourced : w.source? = some s) (accepted : windows.Accepts w between)
    (noRefresh : ∀ m ∈ between, m.op ≠ .writeCmd 0x12)
    (noRestart : ∀ m ∈ between, m.op = .writeCmd 0x10 → m.source.isButton ≠ s.isButton) :
    (windows.after w between).source? = some s ∧
      (windows.after w between = .whole s → w = .whole s ∧ ∀ m ∈ between, ¬ Disturbs s m) := by
  induction between generalizing w with
  | nil => exact ⟨sourced, fun whole => ⟨whole, nofun⟩⟩
  | cons m rest ih =>
      rw [List.forall_mem_cons] at noRefresh noRestart
      obtain ⟨kept, back⟩ := next_sourced sourced accepted.1 noRefresh.1 noRestart.1
      obtain ⟨still, all⟩ := ih kept accepted.2 noRefresh.2 noRestart.2
      refine ⟨still, fun whole => ?_⟩
      obtain ⟨wholeNext, later⟩ := all whole
      obtain ⟨wholeNow, now⟩ := back wholeNext
      exact ⟨wholeNow, List.forall_mem_cons.mpr ⟨now, later⟩⟩

/-- No picture is mixed in messages that are accepted. -/
theorem neverMixed_of_accepts {sent : List Message}
    (accepted : windows.Accepts .closed sent) : NeverMixed sent := by
  rintro s t before between after rfl noRefresh noRestart
  rw [Monitor.accepts_append, Monitor.accepts_cons, Monitor.accepts_append,
    Monitor.accepts_cons] at accepted
  obtain ⟨-, -, between_ok, shown, -⟩ := accepted
  have started : (windows.next (windows.after .closed before) ⟨s, .writeCmd 0x10⟩) = .whole s :=
    rfl
  rw [started] at between_ok shown
  obtain ⟨still, all⟩ := after_sourced rfl between_ok noRefresh noRestart
  refine (all ?_).2
  cases window : windows.after (.whole s) between with
  | closed =>
      rw [window] at still
      cases still
  | whole s' =>
      rw [window] at still
      rw [Option.some.inj still]
  | spoiled s' =>
      rw [window] at shown
      exact absurd rfl (shown.2 rfl s')

/-- A thread may send what it likes while a picture of its own is under way, but for
the refresh of a spoiled one. -/
theorem ok_sameThread {w : Window} {m : Message}
    (same : ∀ s ∈ w.source?, s.isButton = m.source.isButton)
    (shown : m.op = .writeCmd 0x12 → ∀ s, w ≠ .spoiled s) : w.Ok m :=
  ⟨fun s sourced other => absurd (same s sourced).symm other, shown⟩

/-- The panel is idle or takes a picture of `source` that is whole. -/
def Window.Own (source : Source) (w : Window) : Prop := w = .closed ∨ w = .whole source

theorem Window.Own.same {source : Source} {w : Window} (own : w.Own source) :
    ∀ s ∈ w.source?, s.isButton = source.isButton := by
  rintro s sourced
  rcases own with rfl | rfl
  · cases sourced
  · rw [Option.some.inj sourced]

theorem Window.Own.not_spoiled {source : Source} {w : Window} (own : w.Own source) (s : Source) :
    w ≠ .spoiled s := by
  rcases own with rfl | rfl
  · exact nofun
  · exact nofun

theorem Window.Own.next {source : Source} {w : Window} (own : w.Own source) (op : PanelOp) :
    (w.next ⟨source, op⟩).Own source := by
  unfold Window.next
  split
  · exact Or.inr rfl
  · split
    · exact Or.inl rfl
    · rcases own with rfl | rfl
      · exact Or.inl rfl
      · simp [Window.Own]

/-- A source that has the panel to itself keeps its pictures whole. -/
theorem own_accepted {source : Source} (ops : List PanelOp) {w : Window} (own : w.Own source) :
    windows.Accepts w (ops.map (Message.mk source)) ∧
      (windows.after w (ops.map (Message.mk source))).Own source := by
  induction ops generalizing w with
  | nil => exact ⟨trivial, own⟩
  | cons op rest ih =>
      obtain ⟨accepted, kept⟩ := ih (own.next op)
      exact ⟨⟨ok_sameThread own.same fun _ => own.not_spoiled, accepted⟩, kept⟩

/-- No message but a data start makes another source the one being sent. -/
theorem next_source {w : Window} {m : Message} {s : Source}
    (sourced : (w.next m).source? = some s) :
    m.op = .writeCmd 0x10 ∧ s = m.source ∨ m.op ≠ .writeCmd 0x12 ∧ w.source? = some s := by
  unfold Window.next at sourced
  split at sourced
  case isTrue start => exact Or.inl ⟨start, (Option.some.inj sourced).symm⟩
  case isFalse =>
    split at sourced
    case isTrue => cases sourced
    case isFalse noRefresh =>
      refine Or.inr ⟨noRefresh, ?_⟩
      cases w with
      | closed => cases sourced
      | whole s' =>
          dsimp only at sourced
          split at sourced
          · exact sourced
          · exact sourced
      | spoiled s' => exact sourced

/-- A whole picture is spoiled only by a message that disturbs. -/
theorem next_not_spoiled {w : Window} {m : Message} (notSpoiled : ∀ s, w ≠ .spoiled s)
    (calm : ∀ s ∈ w.source?, ¬ Disturbs s m) (s : Source) : w.next m ≠ .spoiled s := by
  unfold Window.next
  split
  · exact nofun
  · split
    · exact nofun
    · cases w with
      | closed => exact nofun
      | whole s' =>
          have own : ¬ (m.op.isData ∧ m.source ≠ s') := fun foreign => calm s' rfl (Or.inl foreign)
          simp [own]
      | spoiled s' => exact absurd rfl (notSpoiled s')

/-- Waking the panel up, whichever picture of the same thread it interrupts. -/
theorem wake_accepted {source : Source} {ops : List PanelOp} {w : Window}
    (noRefresh : ∀ op ∈ ops, op ≠ .writeCmd 0x12)
    (same : ∀ s ∈ w.source?, s.isButton = source.isButton) :
    windows.Accepts w (ops.map (Message.mk source)) ∧
      ∀ s ∈ (windows.after w (ops.map (Message.mk source))).source?,
        s.isButton = source.isButton := by
  induction ops generalizing w with
  | nil => exact ⟨trivial, same⟩
  | cons op rest ih =>
      rw [List.forall_mem_cons] at noRefresh
      have kept : ∀ s ∈ (w.next ⟨source, op⟩).source?, s.isButton = source.isButton := by
        intro s sourced
        rcases next_source sourced with ⟨-, rfl⟩ | ⟨-, before⟩
        · rfl
        · exact same s before
      obtain ⟨accepted, after⟩ := ih noRefresh.2 kept
      exact ⟨⟨ok_sameThread same fun refresh => absurd refresh noRefresh.1, accepted⟩, after⟩

/-- An image packet that begins its picture or goes on with it. -/
theorem packet_accepted {source : Source} {p : ImagePacket} {w : Window}
    (same : ∀ s ∈ w.source?, s.isButton = source.isButton) (fits : p.num = 1 ∨ w.Own source) :
    windows.Accepts w (p.ops.map (Message.mk source)) ∧
      (windows.after w (p.ops.map (Message.mk source))).Own source := by
  by_cases first : p.num = 1
  · have split : p.ops = epdInitFast ++ .writeCmd 0x10 :: (sendImage p.data ++
        if p.num = p.total then epdUpdate ++ epdSleep else []) := by
      simp [ImagePacket.ops, packetOps, sentOps, epdDisplayImageParagraph, first]
    have noRefresh : ∀ op ∈ epdInitFast, op ≠ .writeCmd 0x12 := by decide
    obtain ⟨woken, kept⟩ := wake_accepted noRefresh same
    have isOwn : (Window.whole source).Own source := Or.inr rfl
    obtain ⟨accepted, own⟩ := own_accepted
      (sendImage p.data ++ if p.num = p.total then epdUpdate ++ epdSleep else []) isOwn
    rw [split, List.map_append, List.map_cons, Monitor.accepts_append, Monitor.accepts_cons,
      Monitor.after_append, Monitor.after_cons]
    have isStart : PanelOp.writeCmd 0x10 ≠ .writeCmd 0x12 := by decide
    exact ⟨⟨woken, ok_sameThread kept fun refresh => absurd refresh isStart, accepted⟩, own⟩
  · exact own_accepted p.ops (fits.resolve_left first)

/-! ## The run -/

/-- Every data start in the operations is refreshed by a later one. -/
def Refreshes : List PanelOp → Prop
  | [] => True
  | op :: rest => (op = .writeCmd 0x10 → .writeCmd 0x12 ∈ rest) ∧ Refreshes rest

theorem refreshes_append (front : List PanelOp) {back : List PanelOp}
    (refresh : .writeCmd 0x12 ∈ back) (refreshes : Refreshes back) :
    Refreshes (front ++ back) := by
  induction front with
  | nil => exact refreshes
  | cons op rest ih => exact ⟨fun _ => List.mem_append_right rest refresh, ih⟩

/-- A button picture is refreshed once it has begun. -/
theorem refreshes_button (picture : Vector UInt8 epdBufferSize) :
    Refreshes (epdInitFast ++ epdDisplayImage picture ++ epdSleep) := by
  rw [epdDisplayImage, ← List.append_assoc, List.append_assoc _ epdUpdate]
  refine refreshes_append _ (by decide) ?_
  simp [Refreshes, epdUpdate, epdSleep]

/-- What the WiFi thread has left to send of a packet. -/
def Sharing.packet (s : Sharing) : List Message :=
  s.wifi.map (Message.mk (.transfer s.image s.total))

/-- The invariant: what has been sent is accepted, and so is what is left of a packet;
a button picture under way is the Eink thread's last, and its refresh is to come. -/
structure Apart (s : Sharing) : Prop where
  accepted : windows.Accepts .closed s.sent
  packetAccepted : windows.Accepts s.window s.packet
  packetWhole : ∀ source, windows.after s.window s.packet ≠ .spoiled source
  button : ∀ press, s.window.source? = some (.button press) →
    s.wifi = [] ∧ press = s.press ∧ .writeCmd 0x12 ∈ s.eink
  refreshes : Refreshes s.eink

/-- No picture is spoiled while the WiFi thread waits. -/
theorem Apart.not_spoiled {s : Sharing} (apart : Apart s) (waiting : s.wifi = [])
    (source : Source) : s.window ≠ .spoiled source := by
  have whole := apart.packetWhole source
  rwa [Sharing.packet, waiting] at whole

/-- While the WiFi thread waits there is nothing to say about its packet. -/
theorem apart_waiting {s : Sharing} (waiting : s.wifi = [])
    (accepted : windows.Accepts .closed s.sent) (notSpoiled : ∀ source, s.window ≠ .spoiled source)
    (button : ∀ press, s.window.source? = some (.button press) →
      press = s.press ∧ .writeCmd 0x12 ∈ s.eink)
    (refreshes : Refreshes s.eink) : Apart s := by
  refine ⟨accepted, ?_, ?_, fun press sourced => ⟨waiting, button press sourced⟩, refreshes⟩
  · rw [Sharing.packet, waiting]
    trivial
  · rw [Sharing.packet, waiting]
    exact notSpoiled

theorem init_apart : Apart Sharing.init := apart_waiting rfl trivial nofun nofun trivial

theorem press_apart {s t : Sharing} {picture : Vector UInt8 epdBufferSize} (apart : Apart s)
    (moved : move s (.press picture) = some t) : Apart t := by
  rw [move] at moved
  split at moved
  case isFalse => cases moved
  case isTrue waiting =>
    obtain rfl := Option.some.inj moved
    refine apart_waiting waiting.1 apart.accepted (apart.not_spoiled waiting.1) ?_
      (refreshes_button picture)
    intro press sourced
    have left := (apart.button press sourced).2.2
    rw [waiting.2] at left
    cases left

/-- The window after one more message. -/
theorem window_send {s t : Sharing} {m : Message} (sent : t.sent = s.sent ++ [m]) :
    t.window = s.window.next m := by
  rw [Sharing.window, sent, Monitor.after_append]
  rfl

theorem eink_apart {s t : Sharing} (apart : Apart s) (allowed : Exclusive s .eink)
    (moved : move s .eink = some t) : Apart t := by
  rw [move] at moved
  split at moved
  case h_2 => cases moved
  case h_1 op rest waiting queue =>
    obtain rfl := Option.some.inj moved
    have notSpoiled := apart.not_spoiled waiting
    have refreshes := apart.refreshes
    rw [queue] at refreshes
    -- The message is the Eink thread's own, or it does not disturb.
    have calm : ∀ source ∈ s.window.source?, ¬ Disturbs source ⟨.button s.press, op⟩ := by
      intro source sourced
      cases source with
      | button press =>
          obtain rfl := (apart.button press sourced).2.1
          simp [Disturbs]
      | transfer image total =>
          rw [Exclusive, sourced, Allowed, queue] at allowed
          exact allowed op rfl
    have ok : s.window.Ok ⟨.button s.press, op⟩ :=
      ⟨fun source sourced _ => calm source sourced, fun _ => notSpoiled⟩
    refine apart_waiting waiting ?_ (fun source => ?_) (fun press sourced => ?_) refreshes.2
    · exact (Monitor.accepts_append _ _ _ _).mpr ⟨apart.accepted, ok, trivial⟩
    · rw [window_send rfl]
      exact next_not_spoiled notSpoiled calm source
    · rw [window_send rfl] at sourced
      rcases next_source sourced with ⟨start, same⟩ | ⟨noRefresh, before⟩
      · exact ⟨Source.button.inj same, refreshes.1 start⟩
      · obtain ⟨-, same, refresh⟩ := apart.button press before
        rw [queue] at refresh
        exact ⟨same, (List.mem_cons.mp refresh).resolve_left (Ne.symm noRefresh)⟩

theorem wifi_apart {s t : Sharing} (apart : Apart s) (moved : move s .wifi = some t) :
    Apart t := by
  rw [move] at moved
  split at moved
  case h_2 => cases moved
  case h_1 op rest queue =>
    obtain rfl := Option.some.inj moved
    have accepted := apart.packetAccepted
    have whole := apart.packetWhole
    rw [Sharing.packet, queue] at accepted whole
    have sent := window_send (s := s) (t := { s with
      wifi := rest, sent := s.sent ++ [⟨.transfer s.image s.total, op⟩] }) rfl
    refine ⟨?_, ?_, ?_, fun press sourced => ?_, apart.refreshes⟩
    · exact (Monitor.accepts_append _ _ _ _).mpr ⟨apart.accepted, accepted.1, trivial⟩
    · rw [sent]
      exact accepted.2
    · rw [sent]
      exact whole
    · rw [sent] at sourced
      rcases next_source sourced with ⟨-, same⟩ | ⟨-, before⟩
      · cases same
      · have none := (apart.button press before).1
        rw [queue] at none
        cases none

/-- The WiFi thread has the operations of the frame's packet to do. -/
theorem move_frame (s : Sharing) (image : Nat) (f : CheckedFrame) :
    move s (.frame image f) =
      if s.wifi = [] then
        some { s with
          wifi := f.packet?.toList.flatMap ImagePacket.ops
          lastPacket := (processFrame s.lastPacket f.data).1
          image := image
          total := f.totalPackets }
      else none := by
  rw [← panelOps_step s.lastPacket f]
  rfl

theorem total_of_packet {f : CheckedFrame} {p : ImagePacket} (packet : f.packet? = some p) :
    p.total = f.totalPackets := by
  rw [CheckedFrame.packet?] at packet
  split at packet
  case isTrue =>
    rw [← Option.some.inj packet]
    rfl
  case isFalse => cases packet

theorem frame_apart {s t : Sharing} {image : Nat} {f : CheckedFrame} (apart : Apart s)
    (allowed : Exclusive s (.frame image f)) (moved : move s (.frame image f) = some t) :
    Apart t := by
  rw [move_frame] at moved
  split at moved
  case isFalse => cases moved
  case isTrue waiting =>
    obtain rfl := Option.some.inj moved
    cases packet : f.packet? with
    | none =>
        refine apart_waiting rfl apart.accepted (apart.not_spoiled waiting) ?_ apart.refreshes
        exact fun press sourced => (apart.button press sourced).2
    | some p =>
        rw [Exclusive] at allowed
        -- The picture under way is a transfer's, and the packet goes on with it or begins anew.
        have fits : (∀ source ∈ s.window.source?, source.isButton = false) ∧
            (p.num = 1 ∨ s.window.Own (.transfer image f.totalPackets)) := by
          cases window : s.window with
          | closed => exact ⟨nofun, Or.inr (Or.inl rfl)⟩
          | spoiled source => exact absurd window (apart.not_spoiled waiting source)
          | whole source =>
              rw [window] at allowed
              cases source with
              | button press =>
                  rw [Window.source?, Allowed, packet] at allowed
                  cases allowed
              | transfer image' total =>
                  refine ⟨fun source sourced => Option.some.inj sourced ▸ rfl, ?_⟩
                  rcases allowed p packet with first | ⟨sameImage, sameTotal⟩
                  · exact Or.inl first
                  · refine Or.inr (Or.inr ?_)
                    rw [← sameImage, ← sameTotal, total_of_packet packet]
        obtain ⟨accepted, own⟩ := packet_accepted fits.1 fits.2
        have ops : (some p).toList.flatMap ImagePacket.ops = p.ops :=
          List.flatMap_singleton ImagePacket.ops p
        rw [← ops] at accepted own
        refine ⟨apart.accepted, accepted, own.not_spoiled, ?_, apart.refreshes⟩
        exact fun press sourced => nomatch fits.1 (.button press) sourced

/-- One move that keeps to the windows. -/
theorem move_apart {s t : Sharing} {label : Move} (apart : Apart s)
    (allowed : Exclusive s label) (moved : move s label = some t) : Apart t := by
  cases label with
  | press picture => exact press_apart apart moved
  | eink => exact eink_apart apart allowed moved
  | frame image f => exact frame_apart apart allowed moved
  | wifi => exact wifi_apart apart moved

/-- A white picture. -/
def whitePicture : Vector UInt8 epdBufferSize := Vector.replicate epdBufferSize 0x55

/-- A button press, a whole transfer while the Eink thread wakes the panel, packet 1 of
another one while it still does, and packet 2 after a busy wait of the Eink thread. -/
def inTurns : List Move :=
  [.press whitePicture] ++ List.replicate 3 .eink ++
    [.frame 0 (packetFrame 1 1 0x55)] ++ List.replicate 20 .wifi ++ List.replicate 2 .eink ++
      [.frame 1 (packetFrame 2 1 0x55)] ++ List.replicate 12 .wifi ++ [.eink] ++
        [.frame 1 (packetFrame 2 2 0x55)] ++ List.replicate 9 .wifi ++ List.replicate 20 .eink

/-- The state after `inTurns`. -/
def afterTurns : Sharing :=
  (perform move Exclusive Sharing.init inTurns).get (by decide +kernel)

/-- Packet 1 of 2, a button press, and packet 2 of 2 while the Eink thread is still
waking the panel. -/
def pressInTransfer : List Move :=
  [.frame 0 (packetFrame 2 1 0x55)] ++ List.replicate 12 .wifi ++
    [.press whitePicture] ++ List.replicate 2 .eink ++
      [.frame 0 (packetFrame 2 2 0x55)] ++ List.replicate 2 .wifi

def afterPress : Sharing :=
  (perform move unguarded Sharing.init pressInTransfer).get (by decide +kernel)

end EinkLiteOS.User
