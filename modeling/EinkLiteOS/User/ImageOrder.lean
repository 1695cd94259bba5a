/-
# User.ImageOrder -- are only complete, ordered images shown?

When `ProcessImageData` refreshes the panel, the bytes it shows should be those of
packets 1 to `N` of one image, each once and in order.  The code refreshes on a
packet whose number is its total, and starts over on packet 1; `last_packet` records
the packet before and is not looked at.  So a packet that does not continue the one
before it is shown with it (`skipped_packet_shown`), and only such packets spoil a
picture (`complete_iff`).
-/
import EinkLiteOS.User.ThreadWifi
import Mathlib.Data.List.Chain
import Mathlib.Data.List.Induction

namespace EinkLiteOS.User

open EinkLiteOS.Theory
open EinkLiteOS.Device

set_option autoImplicit false

/-- `shown` is one complete image: packets 1 to `N`, in order, each once, and each
saying that there are `N`. -/
def IsCompleteImage (shown : List ImagePacket) : Prop :=
  shown.map (fun p => p.num.toNat) = List.range' 1 shown.length ∧
    ∀ p ∈ shown, p.total.toNat = shown.length

/-- **Only complete, ordered images are shown**: whenever a frame makes the thread
send the refresh command `0x12`, the data bytes sent since the last command `0x10`
are those of one complete image, which came as the last packets so far. -/
def ShowsCompleteImages (lastPacket : UInt8) (frames : List CheckedFrame) : Prop :=
  ∀ front f back, frames = front ++ f :: back → ∀ before after,
    panelOps (wifiThread.step (wifiThread.final lastPacket front) f).2 =
      before ++ .writeCmd 0x12 :: after →
    ∃ shown, shown <:+ packets (front ++ [f]) ∧ IsCompleteImage shown ∧
      dataSinceStart (panelOps (wifiThread.trace lastPacket front) ++ before) =
        shown.flatMap ImagePacket.data

/-- A packet continues another one: the next number, of as many. -/
def Continues (q p : ImagePacket) : Prop := p.num.toNat = q.num.toNat + 1 ∧ p.total = q.total

/-- A refresh shows `p`, with `later` to come: from `p` on a last packet comes, and no
packet 1 before or with it. -/
def IsShown (p : ImagePacket) (later : List ImagePacket) : Prop :=
  ∃ middle last rest, p :: later = middle ++ last :: rest ∧ last.IsLast ∧
    ∀ q ∈ middle ++ [last], q.num ≠ 1

/-- Every packet that is shown, other than a packet 1, continues the packet before it. -/
def ShownInSequence (packets : List ImagePacket) : Prop :=
  ∀ front p later, packets = front ++ p :: later → IsShown p later →
    ∃ before q, front = before ++ [q] ∧ Continues q p

/-! ## The bytes in the panel -/

theorem sinceStart_sent (p : ImagePacket) (held : List UInt8) :
    p.sent.foldl sinceStart held = (if p.num = 1 then [] else held) ++ p.data := by
  rw [ImagePacket.sent, sentOps, epdDisplayImageParagraph, List.foldl_append, List.foldl_append,
    sinceStart_sendImage]
  by_cases first : p.num = 1
  · rw [if_pos first, if_pos first, if_pos first]
    rfl
  · rw [if_neg first, if_neg first, if_neg first]
    rfl

theorem sinceStart_ops {p : ImagePacket} (notLast : ¬ p.IsLast) (held : List UInt8) :
    p.ops.foldl sinceStart held = (if p.num = 1 then [] else held) ++ p.data := by
  rw [ImagePacket.ops_of_not_isLast notLast, sinceStart_sent]

/-- Packets that start and refresh nothing add their bytes. -/
theorem sinceStart_packets {middle : List ImagePacket} {last : ImagePacket}
    (notFirst : ∀ p ∈ middle ++ [last], p.num ≠ 1) (notLast : ∀ p ∈ middle, ¬ p.IsLast)
    (held : List UInt8) :
    (middle.flatMap ImagePacket.ops ++ last.sent).foldl sinceStart held =
      held ++ (middle ++ [last]).flatMap ImagePacket.data := by
  induction middle generalizing held with
  | nil =>
      have later : last.num ≠ 1 := notFirst last (List.mem_singleton_self last)
      simp [sinceStart_sent, later]
  | cons p rest ih =>
      have later : p.num ≠ 1 := notFirst p List.mem_cons_self
      rw [List.flatMap_cons, List.append_assoc, List.foldl_append,
        sinceStart_ops (notLast p List.mem_cons_self), if_neg later,
        ih (fun q member => notFirst q (List.mem_cons_of_mem p member))
          (fun q member => notLast q (List.mem_cons_of_mem p member))]
      simp

/-- A picture from its packet 1 on: its bytes, whatever was sent before. -/
theorem sinceStart_image {old middle : List ImagePacket} {first last : ImagePacket}
    (image : first :: middle = old ++ [last]) (starts : first.num = 1)
    (notFirst : ∀ p ∈ middle, p.num ≠ 1) (notLast : ∀ p ∈ old, ¬ p.IsLast)
    (held : List UInt8) :
    (old.flatMap ImagePacket.ops ++ last.sent).foldl sinceStart held =
      (first :: middle).flatMap ImagePacket.data := by
  cases old with
  | nil =>
      obtain ⟨rfl, rfl⟩ := List.cons.inj image
      simp [sinceStart_sent, starts]
  | cons p rest =>
      obtain ⟨rfl, rfl⟩ := List.cons.inj image
      rw [List.flatMap_cons, List.append_assoc, List.foldl_append,
        sinceStart_ops (notLast first List.mem_cons_self), if_pos starts, List.nil_append,
        sinceStart_packets notFirst (fun q member => notLast q (List.mem_cons_of_mem first member)),
        List.flatMap_cons]
      rfl

/-! ## From frames to packets -/

/-- The property, packet by packet. -/
def ShowsCompletePackets (packets : List ImagePacket) : Prop :=
  ∀ front p back, packets = front ++ p :: back → p.IsLast →
    ∃ shown, shown <:+ front ++ [p] ∧ IsCompleteImage shown ∧
      (front.flatMap ImagePacket.ops ++ p.sent).foldl sinceStart [] =
        shown.flatMap ImagePacket.data

theorem refresh_notMem_sendImage (data : List UInt8) : .writeCmd 0x12 ∉ sendImage data := by
  simp [sendImage]

theorem refresh_notMem_sent (p : ImagePacket) : .writeCmd 0x12 ∉ p.sent := by
  rw [ImagePacket.sent, sentOps, epdDisplayImageParagraph, List.mem_append, List.mem_append]
  rintro (woken | started | image)
  · split at woken
    · exact absurd woken (by decide)
    · cases woken
  · split at started
    · exact absurd started (by decide)
    · cases started
  · exact refresh_notMem_sendImage p.data image

/-- A packet refreshes the panel if it is the last one, and then once. -/
theorem refresh_iff (p : ImagePacket) (before after : List PanelOp) :
    p.ops = before ++ .writeCmd 0x12 :: after ↔
      p.IsLast ∧ p.sent = before ∧ [.writeData .param 0x00, .checkBusy] ++ epdSleep = after := by
  by_cases last : p.IsLast
  · have tail : epdUpdate ++ epdSleep =
        .writeCmd 0x12 :: ([.writeData .param 0x00, .checkBusy] ++ epdSleep) := rfl
    rw [ImagePacket.ops_of_isLast last, tail,
      List.append_cons_inj_of_notMem (refresh_notMem_sent p) (by decide)]
    simp only [last, true_and]
  · rw [ImagePacket.ops_of_not_isLast last]
    simp only [last, false_and, iff_false]
    intro same
    refine refresh_notMem_sent p ?_
    rw [same]
    exact List.mem_append_right _ List.mem_cons_self

theorem packets_append (front back : List CheckedFrame) :
    packets (front ++ back) = packets front ++ packets back := List.filterMap_append

theorem packets_concat {f : CheckedFrame} {p : ImagePacket} (packet : f.packet? = some p)
    (front : List CheckedFrame) : packets (front ++ [f]) = packets front ++ [p] := by
  rw [packets_append]
  exact congrArg (packets front ++ ·) (by simp [packets, packet])

/-- The refresh is about the packets alone. -/
theorem showsCompleteImages_iff (lastPacket : UInt8) (frames : List CheckedFrame) :
    ShowsCompleteImages lastPacket frames ↔ ShowsCompletePackets (packets frames) := by
  constructor
  · intro shows front p back split last
    obtain ⟨early, late, rfl, rfl, rest⟩ := List.filterMap_eq_append_iff.mp split
    obtain ⟨skipped, f, later, rfl, noPacket, packet, rfl⟩ := List.filterMap_eq_cons_iff.mp rest
    have same : packets (early ++ skipped) = packets early := by
      rw [packets_append, packets, packets, List.filterMap_eq_nil_iff.mpr noPacket,
        List.append_nil]
    have refresh : panelOps
        (wifiThread.step (wifiThread.final lastPacket (early ++ skipped)) f).2 =
        p.sent ++ .writeCmd 0x12 :: ([.writeData .param 0x00, .checkBusy] ++ epdSleep) := by
      rw [panelOps_step, packet, Option.toList_some, List.flatMap_singleton]
      exact (refresh_iff p _ _).mpr ⟨last, rfl, rfl⟩
    obtain ⟨shown, suffix, image, data⟩ :=
      shows (early ++ skipped) f later (List.append_assoc _ _ _).symm _ _ refresh
    rw [packets_concat packet, same] at suffix
    rw [panelOps_trace, same] at data
    exact ⟨shown, suffix, image, data⟩
  · intro shows front f back split before after refresh
    rw [panelOps_step] at refresh
    cases packet : f.packet? with
    | none =>
        rw [packet] at refresh
        exact absurd refresh.symm (List.append_ne_nil_of_right_ne_nil _ (List.cons_ne_nil _ _))
    | some p =>
        rw [packet, Option.toList_some, List.flatMap_singleton] at refresh
        obtain ⟨last, rfl, -⟩ := (refresh_iff p before after).mp refresh
        have packetSplit : packets frames = packets front ++ p :: packets back := by
          rw [split, List.append_cons, packets_append, packets_concat packet, List.append_assoc]
          rfl
        rw [panelOps_trace, packets_concat packet]
        exact shows (packets front) p (packets back) packetSplit last

/-! ## Numbers -/

/-- A chain of packets has consecutive numbers and one total. -/
theorem chain_numbers {first : ImagePacket} {rest : List ImagePacket}
    (chain : (first :: rest).IsChain Continues) :
    (first :: rest).map (fun p => p.num.toNat) =
        List.range' first.num.toNat (first :: rest).length ∧
      ∀ p ∈ first :: rest, p.total = first.total := by
  induction rest generalizing first with
  | nil => exact ⟨rfl, fun p member => by rw [List.mem_singleton.mp member]⟩
  | cons second rest ih =>
      obtain ⟨⟨number, total⟩, chain⟩ := List.isChain_cons_cons.mp chain
      obtain ⟨numbers, totals⟩ := ih chain
      refine ⟨?_, ?_⟩
      · rw [List.map_cons, numbers, number, List.length_cons (a := first), List.range'_succ]
      · intro p member
        rcases List.mem_cons.mp member with rfl | member
        · rfl
        · rw [totals p member, total]

theorem isShown_of_refresh {p : ImagePacket} {more : List ImagePacket} (later : List ImagePacket)
    (notFirst : ∀ q ∈ p :: more, q.num ≠ 1)
    (refreshed : ∃ middle last, p :: more = middle ++ [last] ∧ last.IsLast) :
    IsShown p (more ++ later) := by
  obtain ⟨middle, last, ends, isLast⟩ := refreshed
  refine ⟨middle, last, later, ?_, isLast, ?_⟩
  · rw [← List.cons_append, ends, List.append_assoc, List.singleton_append]
  · rwa [← ends]

/-- Back from a packet that a refresh shows, each packet continues the one before it,
until a packet 1 is found. -/
theorem image_start {packets : List ImagePacket} (inSequence : ShownInSequence packets)
    (front : List ImagePacket) (p : ImagePacket) (more later : List ImagePacket)
    (split : packets = front ++ p :: (more ++ later)) (chain : (p :: more).IsChain Continues)
    (notFirst : ∀ q ∈ more, q.num ≠ 1)
    (refreshed : ∃ middle last, p :: more = middle ++ [last] ∧ last.IsLast) :
    ∃ first rest, first :: rest <:+ front ++ p :: more ∧ p :: more <:+ first :: rest ∧
      (first :: rest).IsChain Continues ∧ first.num = 1 ∧ ∀ q ∈ rest, q.num ≠ 1 := by
  induction front using List.reverseRecOn generalizing p more with
  | nil =>
      by_cases starts : p.num = 1
      · exact ⟨p, more, List.suffix_rfl, List.suffix_rfl, chain, starts, notFirst⟩
      · have shown : IsShown p (more ++ later) :=
          isShown_of_refresh later (List.forall_mem_cons.mpr ⟨starts, notFirst⟩) refreshed
        obtain ⟨before, q, nothing, -⟩ := inSequence [] p _ split shown
        exact absurd nothing.symm (List.append_ne_nil_of_right_ne_nil _ (List.cons_ne_nil _ _))
  | append_singleton front r ih =>
      by_cases starts : p.num = 1
      · exact ⟨p, more, List.suffix_append _ _, List.suffix_rfl, chain, starts, notFirst⟩
      · have shown : IsShown p (more ++ later) :=
          isShown_of_refresh later (List.forall_mem_cons.mpr ⟨starts, notFirst⟩) refreshed
        obtain ⟨before, q, same, continues⟩ := inSequence (front ++ [r]) p _ split shown
        obtain ⟨rfl, heads⟩ := List.append_inj' same rfl
        obtain rfl := (List.cons.inj heads).1
        obtain ⟨middle, last, ends, isLast⟩ := refreshed
        obtain ⟨first, rest, suffix, within, image⟩ := ih r (p :: more)
          (by rw [split, List.append_assoc]; rfl)
          (List.isChain_cons_cons.mpr ⟨continues, chain⟩)
          (List.forall_mem_cons.mpr ⟨starts, notFirst⟩)
          ⟨r :: middle, last, by rw [ends]; rfl, isLast⟩
        refine ⟨first, rest, ?_, (List.suffix_cons _ _).trans within, image⟩
        rw [List.append_assoc]
        exact suffix

/-- A chain from a packet 1 to a last packet is a complete image, and none but the
last of its packets is a last one. -/
theorem chain_complete {first p : ImagePacket} {rest old : List ImagePacket}
    (image : first :: rest = old ++ [p]) (chain : (first :: rest).IsChain Continues)
    (starts : first.num = 1) (last : p.IsLast) :
    IsCompleteImage (first :: rest) ∧ ∀ q ∈ old, ¬ q.IsLast := by
  obtain ⟨numbers, totals⟩ := chain_numbers chain
  have length : (first :: rest).length = old.length + 1 := by
    rw [image, List.length_append, List.length_singleton]
  have starts' : first.num.toNat = 1 := by rw [starts]; rfl
  rw [starts'] at numbers
  have split := numbers
  rw [length, image, List.map_append, List.range'_1_concat] at split
  obtain ⟨oldNumbers, lastNumber⟩ := List.append_inj' split rfl
  have lastNumber : p.num.toNat = 1 + old.length := (List.cons.inj lastNumber).1
  have total : first.total.toNat = old.length + 1 := by
    rw [← totals p (by rw [image]; exact List.mem_append_right _ (List.mem_singleton_self p)),
      ← show p.num = p.total from last, lastNumber, Nat.add_comm]
  refine ⟨⟨numbers, fun q member => by rw [totals q member, total, length]⟩, ?_⟩
  intro q member isLast
  have inside : q.num.toNat ∈ List.range' 1 old.length := by
    rw [← oldNumbers]
    exact List.mem_map_of_mem member
  have tooMany : q.num.toNat = old.length + 1 := by
    rw [show q.num = q.total from isLast,
      totals q (by rw [image]; exact List.mem_append_left _ member), total]
  rw [List.mem_range'_1] at inside
  omega

/-- Packets shown in sequence make complete images. -/
theorem complete_of_inSequence {packets : List ImagePacket} (inSequence : ShownInSequence packets) :
    ShowsCompletePackets packets := by
  intro front p back split last
  obtain ⟨first, rest, suffix, within, chain, starts, notFirst⟩ :=
    image_start inSequence front p [] back split (List.isChain_singleton p) (by simp)
      ⟨[], p, rfl, last⟩
  obtain ⟨old, image⟩ := within
  obtain ⟨complete, notLast⟩ := chain_complete image.symm chain starts last
  refine ⟨first :: rest, suffix, complete, ?_⟩
  obtain ⟨earlier, whole⟩ := suffix
  rw [← image, ← List.append_assoc] at whole
  obtain ⟨rfl, -⟩ := List.append_inj' whole rfl
  rw [List.flatMap_append, List.append_assoc, List.foldl_append]
  exact sinceStart_image image.symm starts notFirst notLast _

/-- Neighbours in a complete image have consecutive numbers. -/
theorem consecutive_numbers {before more : List ImagePacket} {q p : ImagePacket} {n : Nat}
    (numbers : (before ++ q :: p :: more).map (fun p => p.num.toNat) = List.range' 1 n) :
    p.num.toNat = q.num.toNat + 1 := by
  have number : ∀ i r, (before ++ q :: p :: more)[i]? = some r → r.num.toNat = 1 + i := by
    intro i r found
    have mapped := congrArg (·[i]?) numbers
    simp only [List.getElem?_map, found, Option.map_some] at mapped
    obtain ⟨inside, value⟩ := List.getElem?_eq_some_iff.mp mapped.symm
    rw [List.getElem_range', Nat.one_mul] at value
    exact value.symm
  rw [number before.length q (by simp), number (before.length + 1) p (by simp)]
  omega

/-- Complete images are shown in sequence. -/
theorem inSequence_of_complete {packets : List ImagePacket}
    (complete : ShowsCompletePackets packets) : ShownInSequence packets := by
  intro front p later split ⟨middle, last, rest, shown, isLast, notFirst⟩
  obtain ⟨image, suffix, ⟨numbers, totals⟩, data⟩ :=
    complete (front ++ middle) last rest (by rw [split, shown, List.append_assoc]) isLast
  rw [List.foldl_append, sinceStart_sent] at data
  cases image with
  | nil => exact absurd data (List.append_ne_nil_of_right_ne_nil _ last.nonempty)
  | cons first others =>
      have starts : first.num = 1 := by
        have head := (List.cons.inj numbers).1
        exact UInt8.toNat_inj.mp head
      have tail : middle ++ [last] <:+ front ++ middle ++ [last] :=
        ⟨front, (List.append_assoc _ _ _).symm⟩
      -- packet 1 is not among the packets from `p` on, so the image starts before `p`
      rcases List.suffix_or_suffix_of_suffix suffix tail with inside | ⟨early, within⟩
      · exact absurd starts (notFirst first (inside.subset List.mem_cons_self))
      · rcases List.eq_nil_or_concat early with rfl | ⟨before, q, rfl⟩
        · rw [List.nil_append] at within
          exact absurd starts (notFirst first (by rw [within]; exact List.mem_cons_self))
        · obtain ⟨more, head⟩ : ∃ more, middle ++ [last] = p :: more := by
            cases middle with
            | nil => exact ⟨[], congrArg (· :: []) (List.cons.inj shown).1.symm⟩
            | cons m middle =>
                exact ⟨middle ++ [last], congrArg (· :: _) (List.cons.inj shown).1.symm⟩
          rw [List.concat_eq_append, head, List.append_assoc, List.singleton_append] at within
          obtain ⟨earlier, whole⟩ := suffix
          rw [← within, List.append_assoc front, head, ← List.singleton_append, ← List.append_assoc,
            ← List.append_assoc] at whole
          refine ⟨earlier ++ before, q, (List.append_cancel_right whole).symm, ?_, ?_⟩
          · exact consecutive_numbers (within ▸ numbers)
          · rw [← within] at totals
            exact UInt8.toNat_inj.mp ((totals p (by simp)).trans (totals q (by simp)).symm)

/-- **Exactly the packets that are shown out of sequence spoil a picture.** -/
theorem complete_iff (lastPacket : UInt8) (frames : List CheckedFrame) :
    ShowsCompleteImages lastPacket frames ↔ ShownInSequence (packets frames) := by
  rw [showsCompleteImages_iff]
  exact ⟨inSequence_of_complete, complete_of_inSequence⟩

/-- Packets 1 and 3 of 3, with packet 2 lost, are shown as a picture. -/
theorem skipped_packet_shown :
    ¬ ∀ (lastPacket : UInt8) (frames : List CheckedFrame),
      ShowsCompleteImages lastPacket frames := by
  intro all
  let first : ImagePacket := ⟨3, 1, [0x11], List.cons_ne_nil _ _⟩
  let third : ImagePacket := ⟨3, 3, [0x33], List.cons_ne_nil _ _⟩
  have both : packets [packetFrame 3 1 0x11, packetFrame 3 3 0x33] = [first, third] := by
    simp [packets, packetFrame_packet, first, third]
  have complete := (showsCompleteImages_iff 0 _).mp
    (all 0 [packetFrame 3 1 0x11, packetFrame 3 3 0x33])
  rw [both] at complete
  obtain ⟨shown, suffix, ⟨-, totals⟩, data⟩ := complete [first] third [] rfl rfl
  have length : shown.length ≤ 2 := suffix.length_le
  cases shown with
  | nil => exact absurd data (by decide)
  | cons p rest =>
      have three : p.total = 3 := by
        have member := suffix.subset (List.mem_cons_self (a := p) (l := rest))
        simp only [List.singleton_append, List.mem_cons, List.not_mem_nil, or_false] at member
        rcases member with rfl | rfl <;> rfl
      have total := totals p List.mem_cons_self
      rw [three] at total
      exact absurd (total.trans_le length) (by decide)

end EinkLiteOS.User
