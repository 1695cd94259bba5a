/-
# User.PanelPower -- is the panel awake when the WiFi thread writes to it?

The panel sleeps until a reset, and takes picture bytes only after command `0x10`.
Packet 1 of an image resets it and sends that command; the last packet puts it to
sleep.  `ProcessImageData` looks at nothing else, so a packet that comes while no
transfer is open writes to a sleeping panel (`lone_packet_writes_asleep`), and these
packets are the only ones that do (`awake_iff`).
-/
import EinkLiteOS.Theory.Monitor
import EinkLiteOS.User.ThreadWifi
import Mathlib.Data.List.Induction

namespace EinkLiteOS.User

open EinkLiteOS.Theory
open EinkLiteOS.Device

set_option autoImplicit false

/-- The panel: reset since the last deep sleep, and sent command `0x10` since. -/
structure PanelPower where
  awake : Bool
  started : Bool
  deriving DecidableEq, Repr

namespace PanelPower

/-- After `EPD_Sleep`. -/
def asleep : PanelPower := ⟨false, false⟩

/-- Awake, and ready for picture bytes. -/
def receiving : PanelPower := ⟨true, true⟩

def next (s : PanelPower) : PanelOp → PanelPower
  | .rstSet => ⟨true, false⟩
  | .writeCmd cmd =>
      if cmd = 0x07 then asleep
      else if cmd = 0x10 then { s with started := true }
      else s
  | _ => s

/-- The panel may get this operation. -/
def MayGet (s : PanelPower) : PanelOp → Prop
  | .writeCmd cmd => cmd = 0x10 ∨ cmd = 0x12 → s.awake = true
  | .writeData .image _ => s.awake = true ∧ s.started = true
  | _ => True

/-- The rule that the panel is awake whenever it is written. -/
def monitor : Monitor PanelPower PanelOp := ⟨next, MayGet⟩

end PanelPower

open PanelPower (monitor asleep receiving)

/-- **The panel is awake whenever it is written**: whatever the frames make the
thread send, the panel may get it in the state the operations before have left,
starting from deep sleep. -/
def AwakeWhenWritten (lastPacket : UInt8) (frames : List CheckedFrame) : Prop :=
  ∀ before op later, panelOps (wifiThread.trace lastPacket frames) = before ++ op :: later →
    (before.foldl PanelPower.next asleep).MayGet op

/-- A transfer is open: a packet 1 has come, and neither it nor a packet since was the
last of its image. -/
def TransferOpen (packets : List ImagePacket) : Prop :=
  ∃ old first since, packets = old ++ first :: since ∧ first.num = 1 ∧
    ∀ q ∈ first :: since, ¬ q.IsLast

/-- Every packet other than a packet 1 comes while a transfer is open. -/
def ContinuesOpenTransfers (packets : List ImagePacket) : Prop :=
  ∀ before p later, packets = before ++ p :: later → p.num ≠ 1 → TransferOpen before

/-! ## One packet -/

theorem after_sendImage (s : PanelPower) (data : List UInt8) :
    monitor.after s (sendImage data) = s := by
  induction data with
  | nil => rfl
  | cons b rest ih => exact ih

theorem accepts_sendImage (s : PanelPower) {data : List UInt8} (nonempty : data ≠ []) :
    monitor.Accepts s (sendImage data) ↔ s = receiving := by
  have one : ∀ s : PanelPower, s.awake = true ∧ s.started = true ↔ s = receiving := by
    rintro ⟨_ | _, _ | _⟩ <;> simp [receiving]
  induction data with
  | nil => exact absurd rfl nonempty
  | cons b rest ih =>
      rw [sendImage, List.map_cons, Monitor.accepts_cons, ← sendImage]
      show (s.awake = true ∧ s.started = true) ∧ monitor.Accepts s (sendImage rest) ↔ _
      rw [one]
      cases rest with
      | nil => exact ⟨And.left, fun same => ⟨same, trivial⟩⟩
      | cons c rest =>
          exact ⟨And.left, fun same => ⟨same, (ih (List.cons_ne_nil c rest)).mpr same⟩⟩

/-- What a packet sends before the refresh needs an open transfer, or opens one. -/
theorem accepts_sent (s : PanelPower) (p : ImagePacket) :
    monitor.Accepts s p.sent ↔ p.num = 1 ∨ s = receiving := by
  simp only [ImagePacket.sent, sentOps, epdDisplayImageParagraph]
  by_cases first : p.num = 1
  · have woken : monitor.Accepts s epdInitFast := by
      simp [epdInitFast, monitor, PanelPower.MayGet, PanelPower.next]
    have started : monitor.after (monitor.after s epdInitFast) [.writeCmd 0x10] = receiving := rfl
    rw [if_pos first, if_pos first, Monitor.accepts_append, Monitor.accepts_append, started]
    exact ⟨fun _ => Or.inl first, fun _ =>
      ⟨woken, ⟨fun _ => rfl, trivial⟩, (accepts_sendImage _ p.nonempty).mpr rfl⟩⟩
  · rw [if_neg first, if_neg first, List.nil_append, List.nil_append,
      accepts_sendImage _ p.nonempty]
    exact ⟨Or.inr, fun either => either.resolve_left first⟩

theorem after_sent (s : PanelPower) (p : ImagePacket) :
    monitor.after s p.sent = if p.num = 1 then receiving else s := by
  simp only [ImagePacket.sent, sentOps, epdDisplayImageParagraph]
  by_cases first : p.num = 1
  · rw [if_pos first, if_pos first, if_pos first, Monitor.after_append, Monitor.after_append,
      after_sendImage]
    rfl
  · rw [if_neg first, if_neg first, if_neg first, List.nil_append, List.nil_append,
      after_sendImage]

/-- A packet may come when it opens a transfer or one is open. -/
theorem accepts_ops (s : PanelPower) (p : ImagePacket) :
    monitor.Accepts s p.ops ↔ p.num = 1 ∨ s = receiving := by
  by_cases last : p.IsLast
  · rw [ImagePacket.ops_of_isLast last, Monitor.accepts_append, accepts_sent, after_sent]
    refine ⟨And.left, fun either => ⟨either, ?_⟩⟩
    have receives : (if p.num = 1 then receiving else s) = receiving := by
      rcases either with first | same
      · rw [if_pos first]
      · rw [same, ite_self]
    rw [receives]
    simp [epdUpdate, epdSleep, monitor, PanelPower.MayGet, PanelPower.next, receiving]
  · rw [ImagePacket.ops_of_not_isLast last, accepts_sent]

theorem after_ops (s : PanelPower) (p : ImagePacket) :
    monitor.after s p.ops =
      if p.IsLast then asleep else if p.num = 1 then receiving else s := by
  by_cases last : p.IsLast
  · rw [ImagePacket.ops_of_isLast last, Monitor.after_append, after_sent, if_pos last]
    rfl
  · rw [ImagePacket.ops_of_not_isLast last, after_sent, if_neg last]

/-! ## The run -/

theorem transferOpen_concat (packets : List ImagePacket) (p : ImagePacket) :
    TransferOpen (packets ++ [p]) ↔ ¬ p.IsLast ∧ (p.num = 1 ∨ TransferOpen packets) := by
  constructor
  · rintro ⟨old, first, since, split, opens, notLast⟩
    rcases List.eq_nil_or_concat since with rfl | ⟨since, q, rfl⟩
    · obtain ⟨rfl, same⟩ := List.append_inj' split rfl
      obtain rfl := (List.cons.inj same).1
      exact ⟨notLast p List.mem_cons_self, Or.inl opens⟩
    · rw [List.concat_eq_append, ← List.cons_append, ← List.append_assoc] at split
      obtain ⟨rfl, same⟩ := List.append_inj' split rfl
      obtain rfl := (List.cons.inj same).1
      refine ⟨notLast p (by simp), Or.inr ⟨old, first, since, rfl, opens, ?_⟩⟩
      intro r member
      refine notLast r ?_
      rw [List.concat_eq_append, ← List.cons_append]
      exact List.mem_append_left _ member
  · rintro ⟨notLast, opens | ⟨old, first, since, rfl, opens, before⟩⟩
    · exact ⟨packets, p, [], rfl, opens, fun q member => by rwa [List.mem_singleton.mp member]⟩
    · refine ⟨old, first, since ++ [p], by simp, opens, ?_⟩
      intro q member
      rw [← List.cons_append] at member
      rcases List.mem_append.mp member with earlier | now
      · exact before q earlier
      · rwa [List.mem_singleton.mp now]

/-- The panel is asleep, or a transfer is open and it receives. -/
theorem after_packets (packets : List ImagePacket) :
    monitor.after asleep (packets.flatMap ImagePacket.ops) = receiving ∧ TransferOpen packets ∨
      monitor.after asleep (packets.flatMap ImagePacket.ops) = asleep ∧ ¬ TransferOpen packets := by
  induction packets using List.reverseRecOn with
  | nil =>
      refine Or.inr ⟨rfl, ?_⟩
      rintro ⟨old, first, since, split, -⟩
      exact List.append_ne_nil_of_right_ne_nil old (List.cons_ne_nil first since) split.symm
  | append_singleton packets p ih =>
      rw [List.flatMap_append, List.flatMap_singleton, Monitor.after_append, after_ops,
        transferOpen_concat]
      by_cases last : p.IsLast
      · exact Or.inr ⟨if_pos last, fun both => both.1 last⟩
      · by_cases first : p.num = 1
        · exact Or.inl ⟨by rw [if_neg last, if_pos first], last, Or.inl first⟩
        · rw [if_neg last, if_neg first]
          rcases ih with ⟨state, opened⟩ | ⟨state, closed⟩
          · exact Or.inl ⟨state, last, Or.inr opened⟩
          · exact Or.inr ⟨state, fun both => both.2.elim first closed⟩

theorem receiving_iff (packets : List ImagePacket) :
    monitor.after asleep (packets.flatMap ImagePacket.ops) = receiving ↔ TransferOpen packets := by
  rcases after_packets packets with ⟨state, opened⟩ | ⟨state, closed⟩
  · exact ⟨fun _ => opened, fun _ => state⟩
  · rw [state]
    exact ⟨nofun, fun opened => absurd opened closed⟩

/-- **Exactly the packets that continue no open transfer find the panel asleep.** -/
theorem awake_iff (lastPacket : UInt8) (frames : List CheckedFrame) :
    AwakeWhenWritten lastPacket frames ↔ ContinuesOpenTransfers (packets frames) := by
  have accepted : AwakeWhenWritten lastPacket frames ↔
      monitor.Accepts asleep ((packets frames).flatMap ImagePacket.ops) := by
    rw [Monitor.accepts_iff_split, ← panelOps_trace lastPacket]
    exact Iff.rfl
  rw [accepted, Monitor.accepts_flatMap]
  refine forall_congr' fun before => forall_congr' fun p => forall_congr' fun later =>
    imp_congr_right fun _ => ?_
  rw [accepts_ops, receiving_iff]
  exact ⟨fun either later => either.resolve_left later, Classical.or_iff_not_imp_left.mpr⟩

/-- Packet 2 of 3, with packet 1 lost, sends its byte to a panel that sleeps. -/
theorem lone_packet_writes_asleep :
    ¬ ∀ (lastPacket : UInt8) (frames : List CheckedFrame), AwakeWhenWritten lastPacket frames := by
  intro all
  have sent : panelOps (wifiThread.trace 0 [packetFrame 3 2 0x55]) =
      [] ++ .writeData .image 0x55 :: [] := by
    rw [panelOps_trace, packets, List.filterMap_cons, packetFrame_packet]
    decide
  exact absurd (all 0 [packetFrame 3 2 0x55] [] _ [] sent).1 (by decide)

end EinkLiteOS.User
