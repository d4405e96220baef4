import Mathlib.Data.List.Nodup
import Radian.Numbered.Basic
import Radian.Pdcp.Bearer

/-!
# PDCP delivery

What a receiving entity makes of the PDUs of its peer: delivered in order with some of them lost, as
the entity is built for, and delivered in any order, some of them twice, by a channel that forges
PDUs too.

- `receive_transmit` — in order, every PDU that arrives is unprotected under its COUNT.
- `accepted_in_order` — in any order, COUNTs are accepted in strictly increasing order unless a PDU
  arrives late and within reach of the window.
- `unprotect_late` — such a PDU is accepted, and takes the RX COUNT back.
-/

namespace Radian.Pdcp

open Numbered
open Security (Bytes Algorithms)
open Entity (Paired)

variable {k : Kind}

/-! ### In order, with losses -/

/-- A PDU, the SDU in it and the COUNT it was sealed under. -/
structure Transmission where
  count : BitVec 32
  sdu : Bytes
  pdu : Bytes
  deriving DecidableEq, Repr

def transmit (A : Algorithms) (tx : Entity k) : List Bytes → List Transmission
  | [] => []
  | sdu :: rest =>
      ⟨tx.inner.txCount, sdu, (tx.protect A sdu).1⟩ :: transmit A (tx.protect A sdu).2 rest

/-- The COUNT each PDU is taken for, and what `unprotect` makes of it. -/
def receive (A : Algorithms) (rx : Entity k) :
    List Bytes → List (BitVec 32 × Except PdcpError Bytes)
  | [] => []
  | pdu :: rest =>
      (rx.inner.rxCountFor (k.readSn pdu), (rx.unprotect A pdu).1) ::
        receive A (rx.unprotect A pdu).2 rest

/-- What is left of a list when each element is marked as arriving or lost. -/
def arriving {α : Type} : List Bool → List α → List α
  | true :: marks, x :: xs => x :: arriving marks xs
  | false :: marks, _ :: xs => arriving marks xs
  | _, _ => []

/-- Fewer than `limit` are lost in a row, `lost` of them already. -/
def LostBelow (limit : Nat) : (lost : Nat) → List Bool → Prop
  | _, [] => True
  | _, true :: marks => LostBelow limit 0 marks
  | lost, false :: marks => lost + 1 < limit ∧ LostBelow limit (lost + 1) marks

variable {A : Algorithms}

/-- The receiver, `lost` PDUs behind the sender, follows through any losses of fewer than half the
sequence numbers. -/
theorem receive_arriving (hinv : A.Involutive) (sdus : List Bytes) (marks : List Bool) (lost : Nat)
    (tx rx : Entity k) (hpair : Paired tx rx)
    (hcount : tx.inner.txCount = rx.inner.rxCount + BitVec.ofNat 32 lost)
    (hlost : lost < 2 ^ (k.snBits - 1)) (hmarks : LostBelow (2 ^ (k.snBits - 1)) lost marks) :
    receive A rx ((arriving marks (transmit A tx sdus)).map Transmission.pdu) =
      (arriving marks (transmit A tx sdus)).map fun t => (t.count, .ok t.sdu) := by
  induction sdus generalizing marks lost tx rx with
  | nil => rcases marks with _ | ⟨_ | _, marks⟩ <;> rfl
  | cons sdu rest ih =>
    have hnext : (tx.protect A sdu).2.inner.txCount = tx.inner.txCount + 1 := rfl
    rcases marks with _ | ⟨arrives, marks⟩
    · rfl
    · cases arrives with
      | true =>
        have hopen := Entity.unprotect_protect hinv hpair hcount hlost sdu
        have htakes := (Entity.opens_of_unprotect hopen).2.2
        have hcounts : rx.inner.rxCountFor (k.readSn (tx.protect A sdu).1) =
            tx.inner.txCount := by
          rw [Entity.readSn_protect]
          exact rx.rxCountFor_of_ahead hcount hlost
        have hrest := ih marks 0 (tx.protect A sdu).2 (rx.accepted tx.inner.txCount)
          ⟨hpair.direction, hpair.bearer, hpair.integrity, hpair.ciphering⟩
          (by rw [hnext]; simp [Entity.accepted]) (Nat.two_pow_pos _) hmarks
        simp only [transmit, arriving, List.map_cons, receive, hopen, hcounts, hrest]
      | false =>
        obtain ⟨hbelow, hmarks⟩ := hmarks
        refine ih marks (lost + 1) (tx.protect A sdu).2 rx
          ⟨hpair.direction, hpair.bearer, hpair.integrity, hpair.ciphering⟩ ?_ hbelow hmarks
        rw [hnext, hcount, BitVec.add_assoc, BitVec.ofNat_add]
        rfl

/-- Entities in step: every PDU that arrives is unprotected to its SDU under its own COUNT when fewer
than half the sequence numbers are lost in a row, and a rejected PDU leaves the RX COUNT alone. -/
theorem receive_transmit (hinv : A.Involutive) {tx rx : Entity k} (hpair : Paired tx rx)
    (hcount : tx.inner.txCount = rx.inner.rxCount) (sdus : List Bytes) {marks : List Bool}
    (hmarks : LostBelow (2 ^ (k.snBits - 1)) 0 marks) :
    receive A rx ((arriving marks (transmit A tx sdus)).map Transmission.pdu) =
        ((arriving marks (transmit A tx sdus)).map fun t => (t.count, .ok t.sdu)) ∧
      ∀ (e : Entity k) (pdu : Bytes) (err : PdcpError), (e.unprotect A pdu).1 = .error err →
        (e.unprotect A pdu).2.inner.rxCount = e.inner.rxCount := by
  constructor
  · exact receive_arriving hinv sdus marks 0 tx rx hpair (by simp [hcount]) (Nat.two_pow_pos _) hmarks
  · intro e pdu err herr
    have herr' : e.unprotect A pdu = (.error err, (e.unprotect A pdu).2) := Prod.ext herr rfl
    exact congrArg (fun e' => e'.inner.rxCount) (Entity.eq_of_unprotect_error herr')

/-! #### Three SDUs on SRB1, the second lost -/

def sampleKey : Bytes := List.replicate 16 0x11

def sampleSdus : List Bytes :=
  [[0x73, 0x65, 0x63, 0x72, 0x65, 0x74], [0x78], [0x68, 0x65, 0x6c, 0x6c, 0x6f]]

/-- 128-NIA2 on the downlink of SRB1 for the sample, without ciphering. -/
def sampleAlgorithms : Algorithms :=
  .ofStream
    (fun key count bearer direction message nia =>
      if (key, bearer, direction, nia) = (sampleKey, 0, 1, 2) then
        if (count, message) = (0, [0x00, 0x00, 0x73, 0x65, 0x63, 0x72, 0x65, 0x74]) then 0xba249f77
        else if (count, message) = (1, [0x00, 0x01, 0x78]) then 0xf2a67976
        else if (count, message) = (2, [0x00, 0x02, 0x68, 0x65, 0x6c, 0x6c, 0x6f]) then 0xbb51f491
        else 0
      else 0)
    (fun _ _ _ _ _ => [])

def sampleGnb : PdcpSrb := (Entity.new .gnb 1).activateIntegrity sampleKey 2

def sampleUe : PdcpSrb := (Entity.new .ue 1).activateIntegrity sampleKey 2

theorem receive_transmit_sample :
    receive sampleAlgorithms sampleUe
        ((arriving [true, false, true]
          (transmit sampleAlgorithms sampleGnb sampleSdus)).map Transmission.pdu) =
      [(0, .ok [0x73, 0x65, 0x63, 0x72, 0x65, 0x74]), (2, .ok [0x68, 0x65, 0x6c, 0x6c, 0x6f])] :=
  have hpair : Paired sampleGnb sampleUe := ⟨rfl, rfl, rfl, rfl⟩
  have hmarks : LostBelow (2 ^ 11) 0 [true, false, true] := ⟨by decide, trivial⟩
  (receive_transmit (A := sampleAlgorithms) (Algorithms.involutive_ofStream _ _) hpair rfl
    sampleSdus hmarks).1.trans rfl

/-! ### In any order -/

/-- One direction of a bearer. -/
def link (A : Algorithms) (k : Kind) : Link (Entity k) (Entity k) Bytes Bytes Bytes where
  send e sdu := some (e.protect A sdu)
  sends e := e.inner.txCount.toNat
  receive e pdu := ((e.unprotect A pdu).1.toOption, (e.unprotect A pdu).2)
  takes e pdu := (e.inner.rxCountFor (k.readSn pdu)).toNat
  expects e := e.inner.rxCount.toNat

abbrev Channel (k : Kind) : Type := World (Entity k) (Entity k) Bytes Bytes Bytes

def start (tx rx : Entity k) : Channel k :=
  { sender := tx, sent := [], receiver := rx, got := [] }

/-- What the MAC is trusted for: a PDU opens under a COUNT only if the sender produced it for that
COUNT. -/
def Genuine (A : Algorithms) (w : Channel k) (pdu : Bytes) : Prop :=
  ∀ count sdu, w.receiver.inner.openAt A count pdu k.hdrLen = .ok sdu →
    ∃ sdu', (count.toNat, sdu', pdu) ∈ w.sent

/-- The COUNT `c` is below the RX COUNT `r` and the sequence number window still reaches it. -/
def Reached (k : Kind) (r c : Nat) : Prop :=
  Truncated.Behind (2 ^ (32 - k.snBits)) (2 ^ k.snBits) r c

/-- A genuine PDU that does not arrive after a newer one while the window still reaches it. -/
structure OnTime (A : Algorithms) (w : Channel k) (pdu : Bytes) : Prop where
  genuine : Genuine A w pdu
  current : ∀ c sdu, (c, sdu, pdu) ∈ w.sent → ¬ Reached k w.receiver.inner.rxCount.toNat c

/-- COUNTs do not wrap. -/
def CountsBelow (w : Channel k) (_ : Bytes) : Prop := w.sender.inner.txCount.toNat + 1 < 2 ^ 32

/-- All that was sent carries the sequence number of its COUNT, and all that was accepted was
sent. -/
structure Numbering (A : Algorithms) (w : Channel k) : Prop where
  sent : ∀ c sdu pdu, (c, sdu, pdu) ∈ w.sent →
    c + 1 < 2 ^ 32 ∧ (k.readSn pdu).toNat = c % 2 ^ k.snBits
  got : ∀ c sdu, (c, sdu) ∈ w.got → ∃ sdu' pdu, (c, sdu', pdu) ∈ w.sent
  ordered : Ordered (link A k) w

namespace Numbering

variable {w : Channel k} {pdu : Bytes}

theorem span (k : Kind) : 2 ^ (32 - k.snBits) * 2 ^ k.snBits = 2 ^ 32 := by
  cases k <;> rfl

theorem even (k : Kind) : 2 ^ k.snBits = 2 * (2 ^ k.snBits / 2) := by
  cases k <;> rfl

/-- The sequence number of a COUNT behind the RX COUNT is taken for it when the window reaches it. -/
theorem takes_iff_reached (e : Entity k) {sn : BitVec 32} {c : Nat}
    (hsn : sn.toNat = c % 2 ^ k.snBits) (hlt : c < e.inner.rxCount.toNat) :
    (e.inner.rxCountFor sn).toNat = c ↔ Reached k e.inner.rxCount.toNat c := by
  rw [Entity.toNat_rxCountFor, hsn, Nat.mod_mod]
  exact Truncated.nearest_eq_iff_behind (by rw [span]; exact e.inner.rxCount.isLt) (even k)
    (Nat.two_pow_pos _) hlt

/-- A delivery changes nothing, or it hands up a PDU sent under the COUNT it is taken for. -/
theorem receive_cases (hgenuine : Genuine A w pdu) :
    (link A k).receive w.receiver pdu = (none, w.receiver) ∨
      ∃ sdu sdu', ((link A k).takes w.receiver pdu, sdu', pdu) ∈ w.sent ∧
        (link A k).receive w.receiver pdu =
          (some sdu, w.receiver.accepted (w.receiver.inner.rxCountFor (k.readSn pdu))) := by
  rcases hunprotect : w.receiver.unprotect A pdu with ⟨result, e⟩
  cases result with
  | error err =>
    left
    simp [link, hunprotect, Entity.eq_of_unprotect_error hunprotect, Except.toOption]
  | ok sdu =>
    right
    obtain ⟨-, hopen, rfl⟩ := Entity.opens_of_unprotect hunprotect
    obtain ⟨sdu', hsent⟩ := hgenuine _ _ hopen
    exact ⟨sdu, sdu', hsent, by simp [link, hunprotect, Except.toOption]⟩

theorem forward (h : Numbering A w) (hpdu : OnTime A w pdu) :
    (link A k).Forward w.receiver pdu := by
  rcases receive_cases hpdu.genuine with hnone | ⟨sdu, sdu', hsent, hsome⟩
  · constructor
    · intro m r hreceive
      cases hnone.symm.trans hreceive
    · intro r hreceive
      cases hnone.symm.trans hreceive
      rfl
  · obtain ⟨hlimit, hsn⟩ := h.sent _ _ _ hsent
    constructor
    · intro m r hreceive
      cases hsome.symm.trans hreceive
      constructor
      · by_contra hlt
        have hreached := (takes_iff_reached w.receiver hsn (Nat.lt_of_not_le hlt)).mp rfl
        exact hpdu.current _ _ hsent hreached
      · change ((w.receiver.inner.rxCountFor (k.readSn pdu)) + 1).toNat = _
        simp only [link] at hlimit ⊢
        bv_omega
    · intro r hreceive
      cases hsome.symm.trans hreceive

theorem deliver (h : Numbering A w) (hpdu : OnTime A w pdu) :
    Numbering A (w.deliver (link A k) pdu) := by
  have hordered := h.ordered.deliver (h.forward hpdu)
  rcases receive_cases hpdu.genuine with hnone | ⟨sdu, sdu', hsent, hsome⟩
  · rw [World.deliver_reject hnone] at hordered ⊢
    exact { h with ordered := hordered }
  · rw [World.deliver_accept hsome] at hordered ⊢
    refine { h with got := ?_, ordered := hordered }
    intro c sdu₁ hmem
    rw [List.mem_append, List.mem_singleton] at hmem
    rcases hmem with hmem | hmem
    · exact h.got c sdu₁ hmem
    · cases hmem
      exact ⟨sdu', pdu, hsent⟩

theorem send (h : Numbering A w) {sdu d : Bytes} {tx : Entity k} (hcount : CountsBelow w sdu)
    (hsend : (link A k).send w.sender sdu = some (d, tx)) :
    Numbering A (w.send (link A k) sdu d tx) := by
  refine { h with sent := ?_, got := ?_, ordered := h.ordered.send }
  · intro c sdu' pdu hmem
    rw [World.send, List.mem_append, List.mem_singleton] at hmem
    rcases hmem with hmem | hmem
    · exact h.sent c sdu' pdu hmem
    · cases hmem
      cases hsend
      exact ⟨hcount, w.sender.toNat_readSn_protect sdu⟩
  · intro c sdu' hmem
    obtain ⟨sdu₁, pdu, hsent⟩ := h.got c sdu' hmem
    exact ⟨sdu₁, pdu, List.mem_append_left _ hsent⟩

end Numbering

/-- Over any delivery order in which no PDU arrives late and within reach, COUNTs are accepted in
strictly increasing order, so that every PDU is accepted at most once. -/
theorem accepted_in_order {tx rx : Entity k} {w : Channel k}
    (hrun : Run (link A k) CountsBelow (OnTime A) (start tx rx) w) :
    w.accepted.Pairwise (· < ·) ∧ w.accepted.Nodup ∧
      ∀ c sdu, (c, sdu) ∈ w.got → ∃ sdu' pdu, (c, sdu', pdu) ∈ w.sent := by
  have h : Numbering A w :=
    hrun.invariant (fun _ _ _ _ h hmay hsend => h.send hmay hsend)
      (fun _ _ h hpdu => h.deliver hpdu)
      { sent := by simp [start], got := by simp [start], ordered := .nothing rfl }
  exact ⟨h.ordered.increasing, h.ordered.once, h.got⟩

/-- A PDU that arrives late and within reach is accepted, and takes the RX COUNT back. -/
theorem unprotect_late (hinv : A.Involutive) {tx rx : Entity k} (hpair : Paired tx rx)
    (hreached : Reached k rx.inner.rxCount.toNat tx.inner.txCount.toNat) (sdu : Bytes) :
    rx.unprotect A (tx.protect A sdu).1 = (.ok sdu, rx.accepted tx.inner.txCount) := by
  have hsn := tx.toNat_readSn_protect (A := A) sdu
  have htakes : rx.inner.rxCountFor (k.readSn (tx.protect A sdu).1) = tx.inner.txCount :=
    BitVec.eq_of_toNat_eq ((Numbering.takes_iff_reached rx hsn hreached.1).mpr hreached)
  have hlen : k.hdrLen ≤ (tx.protect A sdu).1.length := by
    simp [Entity.protect, Bearer.txSeal]
  rw [Entity.unprotect_of_opens hlen (by rw [htakes]; exact Entity.openAt_protect hinv hpair sdu),
    htakes]

/-! #### One PDU on SRB1, delivered once and delivered twice -/

def samplePdu : Bytes :=
  [0x00, 0x00, 0x73, 0x65, 0x63, 0x72, 0x65, 0x74, 0xba, 0x24, 0x9f, 0x77]

def sampleSent : Channel .srb :=
  { sender := (sampleGnb.protect sampleAlgorithms [0x73, 0x65, 0x63, 0x72, 0x65, 0x74]).2
    sent := [(0, [0x73, 0x65, 0x63, 0x72, 0x65, 0x74], samplePdu)]
    receiver := sampleUe
    got := [] }

theorem genuine_samplePdu {w : Channel .srb} (hsent : w.sent = sampleSent.sent)
    (hreceiver : Paired sampleGnb w.receiver) : Genuine sampleAlgorithms w samplePdu := by
  intro count sdu hopen
  by_cases hc : count = 0#32
  · rw [hsent, hc]
    exact ⟨_, List.mem_singleton_self _⟩
  · -- The MAC-I of the sample is that of COUNT 0.
    have hmac : sampleAlgorithms.nasMac sampleKey count 0 1
        [0x00, 0x00, 0x73, 0x65, 0x63, 0x72, 0x65, 0x74] 2 = 0 := by
      simp [sampleAlgorithms, Algorithms.ofStream, hc]
    have hopens : w.receiver.inner.openAt sampleAlgorithms count samplePdu 2 =
        if sampleAlgorithms.nasMac sampleKey count 0 1
          [0x00, 0x00, 0x73, 0x65, 0x63, 0x72, 0x65, 0x74] 2 ≠ 0xba249f77#32 then
          .error .integrityFailure
        else .ok [0x73, 0x65, 0x63, 0x72, 0x65, 0x74] := by
      simp only [Bearer.openAt, Bearer.cipher, hreceiver.integrity, hreceiver.ciphering,
        hreceiver.bearer, hreceiver.direction]
      rfl
    rw [hmac, if_pos (by decide)] at hopens
    cases hopens.symm.trans hopen

theorem run_sampleSent (may : Channel .srb → Bytes → Prop) :
    Run (link sampleAlgorithms .srb) CountsBelow may (start sampleGnb sampleUe) sampleSent :=
  .send (a := [0x73, 0x65, 0x63, 0x72, 0x65, 0x74]) .refl
    (show (0#32).toNat + 1 < 2 ^ 32 by decide) rfl

theorem accepted_in_order_samplePdu :
    (sampleSent.deliver (link sampleAlgorithms .srb) samplePdu).accepted.Nodup :=
  (accepted_in_order (.deliver (run_sampleSent _) ⟨genuine_samplePdu rfl ⟨rfl, rfl, rfl, rfl⟩, by
    intro c sdu _ hreached
    exact Nat.not_lt_zero c hreached.1⟩)).2.1

/-- Delivered again at once, the same PDU is accepted again under the same COUNT. -/
theorem accepted_twice :
    ∃ w : Channel .srb,
      Run (link sampleAlgorithms .srb) CountsBelow (Genuine sampleAlgorithms)
        (start sampleGnb sampleUe) w ∧
      sampleUe.inner.integrity.isSome ∧ w.accepted = [0, 0] ∧ ¬ w.accepted.Pairwise (· < ·) := by
  have hfirst : Run (link sampleAlgorithms .srb) CountsBelow (Genuine sampleAlgorithms)
      (start sampleGnb sampleUe) (sampleSent.deliver (link sampleAlgorithms .srb) samplePdu) :=
    .deliver (run_sampleSent _) (genuine_samplePdu rfl ⟨rfl, rfl, rfl, rfl⟩)
  refine ⟨_, .deliver hfirst (d := samplePdu) (genuine_samplePdu rfl ⟨rfl, rfl, rfl, rfl⟩), rfl, ?_, ?_⟩
  · decide
  · decide

end Radian.Pdcp
