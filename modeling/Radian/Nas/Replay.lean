import Mathlib.Data.List.Nodup
import Radian.Nas.Security
import Radian.Numbered.Basic

/-!
# NAS over an untrusted channel

A sender protects messages in one direction; the channel delivers its PDUs in any order, some of
them twice or never, and whatever else it makes up.

- `Genuine` — what the MAC is trusted for.
- `Sealed` — the invariant of a run.
- `unprotect_cases` — a delivery changes nothing or hands up the message of a newer COUNT.
- `replay_protection` — messages are accepted in order, at most once, unaltered, and across losses.
- `receiveAll_sendAll` — in the order they were protected in, every one is accepted.
-/

namespace Radian.Nas

open Numbered (Link World Run Ordered)
open Security (Bytes Algorithms)
open NasSecurityContext (SameKeys Verifies)

variable {Msg : Type}

/-- One direction of NAS.  A message is sent with its security header type. -/
def link (A : Algorithms) (C : Codec Msg) (direction : UInt8) :
    Link NasSecurityContext NasSecurityContext (Msg × UInt8) Msg Bytes where
  send ctx a := ctx.protect A C a.1 a.2 direction
  sends ctx := (ctx.count direction).toNat
  receive ctx data := ctx.unprotect A C data direction
  takes ctx data :=
    match Envelope.ofBytes data with
    | some env => (estimate (ctx.count direction) env.sn).toNat
    | none => 0
  expects ctx := (ctx.count direction).toNat

abbrev Channel (Msg : Type) : Type :=
  World NasSecurityContext NasSecurityContext (Msg × UInt8) Msg Bytes

/-- Two contexts before anything is sent. -/
def start (tx rx : NasSecurityContext) : Channel Msg :=
  { sender := tx, sent := [], receiver := rx, got := [] }

/-- Two envelopes with the same MAC and the same protected part. -/
structure Envelope.Agrees (env env' : Envelope) : Prop where
  mac : env.mac = env'.mac
  sn : env.sn = env'.sn
  payload : env.payload = env'.payload

/-- What the MAC is trusted for: a datagram verifies for a COUNT only if the sender produced it for
that COUNT.  The MAC does not cover the security header type, which is assumed to be the one sent. -/
structure Genuine (A : Algorithms) (direction : UInt8) (w : Channel Msg) (data : Bytes) :
    Prop where
  produced : ∀ env, Envelope.ofBytes data = some env →
    ∀ c, w.receiver.mac A c direction env.sn env.payload = env.mac →
      ∃ a pdu env', (c.toNat, a, pdu) ∈ w.sent ∧ Envelope.ofBytes pdu = some env' ∧ env.Agrees env'
  header : ∀ env, Envelope.ofBytes data = some env →
    ∀ c a pdu env', (c, a, pdu) ∈ w.sent → Envelope.ofBytes pdu = some env' → env.Agrees env' →
      env.sht = env'.sht

/-- COUNTs stay below 2^24. -/
def CountsBelow (direction : UInt8) (w : Channel Msg) (_ : Msg × UInt8) : Prop :=
  (w.sender.count direction).toNat < 2 ^ 24

/-- All that was sent is sealed with the keys of `tx` under COUNTs of its own, and all that was
accepted was sent. -/
structure Sealed (A : Algorithms) (C : Codec Msg) (direction : UInt8)
    (tx rx : NasSecurityContext) (w : Channel Msg) : Prop where
  sender : SameKeys tx w.sender
  receiver : SameKeys tx w.receiver
  sent : ∀ c m sht pdu, (c, (m, sht), pdu) ∈ w.sent →
    c < 2 ^ 24 ∧ c < (w.sender.count direction).toNat ∧ ∃ bytes, C.encode m = some bytes ∧
      pdu = (tx.envelope A (BitVec.ofNat 32 c) bytes sht direction).toBytes
  distinct : (w.sent.map Prod.fst).Nodup
  got : ∀ c m, (c, m) ∈ w.got → ∃ sht pdu, (c, (m, sht), pdu) ∈ w.sent
  ordered : Ordered (link A C direction) w
  expects : (w.receiver.count direction).toNat ≤ 2 ^ 24
  unmoved : w.accepted = [] → w.receiver.count direction = rx.count direction

variable {A : Algorithms} {C : Codec Msg} {direction : UInt8} {tx rx : NasSecurityContext}
  {w : Channel Msg}

theorem sealed_start (hkeys : SameKeys tx rx) (hrx : (rx.count direction).toNat ≤ 2 ^ 24) :
    Sealed A C direction tx rx (start tx rx) where
  sender := .refl tx
  receiver := hkeys
  sent := by simp [start]
  distinct := by simp [start]
  got := by simp [start]
  ordered := .nothing rfl
  expects := hrx
  unmoved _ := rfl

namespace Sealed

/-- A delivery changes nothing, or it hands up a message sent under a COUNT not consumed before. -/
theorem unprotect_cases (hinv : A.Involutive) (hcodec : C.Inverts)
    (h : Sealed A C direction tx rx w) {data : Bytes} (hgenuine : Genuine A direction w data) :
    w.receiver.unprotect A C data direction = (none, w.receiver) ∨
      ∃ c : BitVec 32, ∃ m sht pdu, (c.toNat, (m, sht), pdu) ∈ w.sent ∧ c.toNat < 2 ^ 24 ∧
        (w.receiver.count direction).toNat ≤ c.toNat ∧
        (link A C direction).takes w.receiver data = c.toNat ∧
        w.receiver.unprotect A C data direction =
          (some m, w.receiver.setCount direction (c + 1)) := by
  by_cases hverifies : ∃ env, Envelope.ofBytes data = some env ∧ Verifies A w.receiver env direction
  · obtain ⟨env, henv, hv⟩ := hverifies
    right
    obtain ⟨⟨m, sht⟩, pdu, env', hsent, hpdu, hagrees⟩ := hgenuine.produced env henv _ hv.mac
    obtain ⟨hlimit, -, bytes, hencode, rfl⟩ := h.sent _ _ _ _ hsent
    have hsht := hgenuine.header env henv _ _ _ _ hsent hpdu hagrees
    rw [Envelope.ofBytes_toBytes, Option.some_inj] at hpdu
    refine ⟨_, m, sht, _, hsent, hlimit, BitVec.le_def.mp hv.newer, by simp [link, henv], ?_⟩
    rw [NasSecurityContext.unprotect_of_verifies henv hv, hagrees.payload, hsht, ← hpdu,
      BitVec.ofNat_toNat, BitVec.setWidth_eq]
    exact congrArg (·, _) (NasSecurityContext.decode_envelope hinv hcodec h.receiver hencode)
  · left
    apply NasSecurityContext.unprotect_of_not_verifies
    intro env henv hv
    exact hverifies ⟨env, henv, hv⟩

theorem forward (hinv : A.Involutive) (hcodec : C.Inverts) (h : Sealed A C direction tx rx w)
    {data : Bytes} (hgenuine : Genuine A direction w data) :
    (link A C direction).Forward w.receiver data := by
  rcases h.unprotect_cases hinv hcodec hgenuine with hnone | ⟨c, m, sht, pdu, -, hlt, hle, htakes, hsome⟩
  · constructor
    · intro m r hreceive
      cases hnone.symm.trans hreceive
    · intro r hreceive
      cases hnone.symm.trans hreceive
      rfl
  · constructor
    · intro m' r hreceive
      cases hsome.symm.trans hreceive
      rw [htakes]
      refine ⟨hle, ?_⟩
      change ((w.receiver.setCount direction (c + 1)).count direction).toNat = _
      rw [NasSecurityContext.count_setCount]
      bv_omega
    · intro r hreceive
      cases hsome.symm.trans hreceive

theorem deliver (hinv : A.Involutive) (hcodec : C.Inverts) (h : Sealed A C direction tx rx w)
    {data : Bytes} (hgenuine : Genuine A direction w data) :
    Sealed A C direction tx rx (w.deliver (link A C direction) data) := by
  have hordered := h.ordered.deliver (h.forward hinv hcodec hgenuine)
  rcases h.unprotect_cases hinv hcodec hgenuine with hnone | ⟨c, m, sht, pdu, hsent, hlt, -, htakes, hsome⟩
  · rw [World.deliver_reject (L := link A C direction) hnone] at hordered ⊢
    exact { h with ordered := hordered }
  · rw [World.deliver_accept (L := link A C direction) hsome] at hordered ⊢
    refine { h with
      receiver := h.receiver.trans (.setCount _ _ _)
      got := ?_
      ordered := hordered
      expects := ?_
      unmoved := ?_ }
    · intro c' m' hmem
      rw [htakes, List.mem_append, List.mem_singleton] at hmem
      rcases hmem with hmem | hmem
      · exact h.got c' m' hmem
      · cases hmem
        exact ⟨sht, pdu, hsent⟩
    · change ((w.receiver.setCount direction (c + 1)).count direction).toNat ≤ _
      rw [NasSecurityContext.count_setCount]
      bv_omega
    · intro hempty
      simp [World.accepted] at hempty

theorem send (h : Sealed A C direction tx rx w) {a : Msg × UInt8} {d : Bytes}
    {tx' : NasSecurityContext} (hcount : CountsBelow direction w a)
    (hprotect : (link A C direction).send w.sender a = some (d, tx')) :
    Sealed A C direction tx rx (w.send (link A C direction) a d tx') := by
  obtain ⟨m, sht⟩ := a
  simp only [link, NasSecurityContext.protect, Option.bind_eq_bind, Option.bind_eq_some_iff,
    Option.pure_def, Option.some_inj, Prod.mk.injEq] at hprotect
  obtain ⟨bytes, hencode, rfl, rfl⟩ := hprotect
  have hnext : ((w.sender.setCount direction (w.sender.count direction + 1)).count
      direction).toNat = (w.sender.count direction).toNat + 1 := by
    have hlt : (w.sender.count direction).toNat < 2 ^ 24 := hcount
    rw [NasSecurityContext.count_setCount]
    bv_omega
  refine { h with
    sender := h.sender.trans (.setCount _ _ _)
    sent := ?_
    distinct := ?_
    got := ?_
    ordered := h.ordered.send }
  · intro c m' sht' pdu hmem
    rw [World.send, List.mem_append, List.mem_singleton] at hmem
    change _ ∧ c < ((w.sender.setCount direction (w.sender.count direction + 1)).count
      direction).toNat ∧ _
    rw [hnext]
    rcases hmem with hmem | hmem
    · obtain ⟨hlimit, hlt, hpdu⟩ := h.sent c m' sht' pdu hmem
      exact ⟨hlimit, by omega, hpdu⟩
    · cases hmem
      refine ⟨hcount, Nat.lt_succ_self _, bytes, hencode, ?_⟩
      rw [h.sender.envelope_eq]
      simp [link]
  · rw [World.send, List.map_append, List.nodup_append]
    refine ⟨h.distinct, by simp, ?_⟩
    intro c hc c' hc' heq
    obtain ⟨⟨_, ⟨m', sht'⟩, pdu⟩, hmem, rfl⟩ := List.mem_map.mp hc
    have hlt := (h.sent _ _ _ _ hmem).2.1
    simp only [link, List.map_cons, List.map_nil, List.mem_singleton] at hc'
    omega
  · intro c m' hmem
    obtain ⟨sht', pdu, hsent⟩ := h.got c m' hmem
    exact ⟨sht', pdu, List.mem_append_left _ hsent⟩

/-- A PDU sent under a COUNT less than 128 ahead of the expected one is accepted. -/
theorem accepts (hinv : A.Involutive) (hcodec : C.Inverts) (h : Sealed A C direction tx rx w)
    {c : Nat} {m : Msg} {sht : UInt8} {pdu : Bytes} (hsent : (c, (m, sht), pdu) ∈ w.sent)
    (hle : (w.receiver.count direction).toNat ≤ c)
    (hlt : c < (w.receiver.count direction).toNat + 128) :
    (w.receiver.unprotect A C pdu direction).1 = some m := by
  obtain ⟨hlimit, -, bytes, hencode, rfl⟩ := h.sent _ _ _ _ hsent
  have hc : (BitVec.ofNat 32 c).toNat = c := by
    rw [BitVec.toNat_ofNat]
    omega
  have hestimate : estimate (w.receiver.count direction)
      (tx.envelope A (BitVec.ofNat 32 c) bytes sht direction).sn = BitVec.ofNat 32 c :=
    estimate_of_window (by omega) (by omega) (by omega)
  have hv : Verifies A w.receiver (tx.envelope A (BitVec.ofNat 32 c) bytes sht direction)
      direction := by
    constructor
    · rw [hestimate, BitVec.le_def]
      omega
    · rw [hestimate, h.receiver.mac_eq]
      rfl
  rw [NasSecurityContext.unprotect_of_verifies (Envelope.ofBytes_toBytes _) hv, hestimate]
  exact NasSecurityContext.decode_envelope hinv hcodec h.receiver hencode

/-- A COUNT was used for one message only. -/
theorem sent_unique (h : Sealed A C direction tx rx w) {c : Nat} {a a' : Msg × UInt8}
    {pdu pdu' : Bytes} (hmem : (c, a, pdu) ∈ w.sent) (hmem' : (c, a', pdu') ∈ w.sent) : a = a' := by
  have hinj := List.inj_on_of_nodup_map h.distinct hmem hmem' rfl
  cases hinj
  rfl

end Sealed

theorem run_sealed (hinv : A.Involutive) (hcodec : C.Inverts) (hkeys : SameKeys tx rx)
    (hrx : (rx.count direction).toNat ≤ 2 ^ 24)
    (hrun : Run (link A C direction) (CountsBelow direction) (Genuine A direction)
      (start tx rx) w) : Sealed A C direction tx rx w :=
  hrun.invariant (fun _ _ _ _ h hmay hsend => h.send hmay hsend)
    (fun _ _ h hgenuine => h.deliver hinv hcodec hgenuine) (sealed_start hkeys hrx)

/-- A COUNT follows the last one accepted, or the start of the receiver, by at most 128. -/
def Follows (rx : NasSecurityContext) (direction : UInt8) (w : Channel Msg) (c : Nat) : Prop :=
  match w.accepted.getLast? with
  | some l => l < c ∧ c ≤ l + 128
  | none => (rx.count direction).toNat ≤ c ∧ c < (rx.count direction).toNat + 128

/-- Whatever the channel delivers: COUNTs are accepted in strictly increasing order, each with the
message sent under it, a rejected datagram changes nothing, and up to 127 lost messages in a row do
not keep the next one from being accepted. -/
theorem replay_protection (hinv : A.Involutive) (hcodec : C.Inverts) (hkeys : SameKeys tx rx)
    (hrx : (rx.count direction).toNat ≤ 2 ^ 24)
    (hrun : Run (link A C direction) (CountsBelow direction) (Genuine A direction)
      (start tx rx) w) :
    w.accepted.Pairwise (· < ·) ∧
      (∀ c m, (c, m) ∈ w.got →
        (∃ sht pdu, (c, (m, sht), pdu) ∈ w.sent) ∧
          ∀ m' sht pdu, (c, (m', sht), pdu) ∈ w.sent → m' = m) ∧
      (∀ data, Genuine A direction w data →
        (w.receiver.unprotect A C data direction).1 = none →
          (w.receiver.unprotect A C data direction).2 = w.receiver) ∧
      ∀ c m sht pdu, (c, (m, sht), pdu) ∈ w.sent → Follows rx direction w c →
        (w.receiver.unprotect A C pdu direction).1 = some m := by
  have h := run_sealed hinv hcodec hkeys hrx hrun
  refine ⟨h.ordered.increasing, ?_, ?_, ?_⟩
  · intro c m hgot
    obtain ⟨sht, pdu, hsent⟩ := h.got c m hgot
    refine ⟨⟨sht, pdu, hsent⟩, ?_⟩
    intro m' sht' pdu' hsent'
    cases h.sent_unique hsent hsent'
    rfl
  · intro data hgenuine hrejected
    rcases h.unprotect_cases hinv hcodec hgenuine with hnone | ⟨c, m, sht, pdu, -, -, -, -, hsome⟩
    · rw [hnone]
    · rw [hsome] at hrejected
      cases hrejected
  · intro c m sht pdu hsent hfollows
    unfold Follows at hfollows
    cases hlast : w.accepted.getLast? with
    | none =>
        have hunmoved := h.unmoved (List.getLast?_eq_none_iff.mp hlast)
        rw [hlast] at hfollows
        rw [← hunmoved] at hfollows
        exact h.accepts hinv hcodec hsent hfollows.1 hfollows.2
    | some l =>
        have hnewest : (w.receiver.count direction).toNat = l + 1 := h.ordered.newest l hlast
        rw [hlast] at hfollows
        exact h.accepts hinv hcodec hsent (by omega) (by omega)

/-! ### A Registration Complete delivered twice -/

inductive SampleMessage where
  | registrationComplete
  deriving DecidableEq, Repr

def sampleCodec : Codec SampleMessage where
  encode _ := some [0x7e, 0x00, 0x43]
  decode bytes := if bytes = [0x7e, 0x00, 0x43] then some .registrationComplete else none

def sampleIntegrityKey : Bytes := List.replicate 16 0x11

def sampleCipheringKey : Bytes := List.replicate 16 0x22

/-- 128-NIA2 and 128-NEA2 on the inputs of the sample. -/
def sampleAlgorithms : Algorithms :=
  .ofStream
    (fun key count bearer direction message nia =>
      if (key, count, bearer, direction, message, nia) =
          (sampleIntegrityKey, 0, 1, 0, [0x00, 0xb9, 0xaa, 0xb1], 2) then 0xfcd34f72 else 0)
    (fun key count bearer direction nea =>
      if (key, count, bearer, direction, nea) = (sampleCipheringKey, 0, 1, 0, 2) then
        [0xc7, 0xaa, 0xf2]
      else [])

def sampleContext : NasSecurityContext := .new sampleIntegrityKey sampleCipheringKey 2 2

def samplePdu : Bytes :=
  [0x7e, 0x02, 0xfc, 0xd3, 0x4f, 0x72, 0x00, 0xb9, 0xaa, 0xb1]

def sampleSent : Channel SampleMessage :=
  { sender := sampleContext.setCount 0 1
    sent := [(0, (.registrationComplete, Sht.INTEGRITY_CIPHERED), samplePdu)]
    receiver := sampleContext
    got := [] }

def sampleDelivered : Channel SampleMessage :=
  { sampleSent with
    receiver := sampleContext.setCount 0 1
    got := [(0, .registrationComplete)] }

theorem genuine_samplePdu {w : Channel SampleMessage} (hsent : w.sent = sampleSent.sent)
    (hreceiver : SameKeys sampleContext w.receiver) :
    Genuine sampleAlgorithms 0 w samplePdu := by
  constructor
  · intro env henv c hmac
    cases henv
    rw [hreceiver.mac_eq] at hmac
    have hc : c = 0 := by
      by_contra hc
      have hzero : (0 : BitVec 32) = 0xfcd34f72 := by
        refine Eq.trans ?_ hmac
        exact (if_neg fun h => hc (Prod.mk.inj (Prod.mk.inj h).2).1).symm
      exact absurd hzero (by decide)
    subst hc
    rw [hsent]
    exact ⟨_, samplePdu, _, List.mem_singleton_self _, rfl, ⟨rfl, rfl, rfl⟩⟩
  · intro env henv c a pdu env' hmem hpdu _
    rw [hsent] at hmem
    cases List.mem_singleton.mp hmem
    cases henv.symm.trans hpdu
    rfl

theorem run_sampleDelivered :
    Run (link sampleAlgorithms sampleCodec 0) (CountsBelow 0) (Genuine sampleAlgorithms 0)
      (start sampleContext sampleContext) sampleDelivered := by
  have hsent : Run (link sampleAlgorithms sampleCodec 0) (CountsBelow 0)
      (Genuine sampleAlgorithms 0) (start sampleContext sampleContext) sampleSent :=
    .send (a := (SampleMessage.registrationComplete, Sht.INTEGRITY_CIPHERED)) .refl
      (show (0#32).toNat < 2 ^ 24 by decide) (by decide)
  exact .deliver (d := samplePdu) hsent (genuine_samplePdu rfl (.refl _))

/-- The replay is rejected without a trace. -/
theorem replay_protection_registrationComplete :
    (sampleDelivered.receiver.unprotect sampleAlgorithms sampleCodec samplePdu 0).2 =
      sampleDelivered.receiver :=
  (replay_protection (Algorithms.involutive_ofStream _ _)
    (by rintro ⟨⟩ bytes h; cases h; rfl) (.refl sampleContext) (by decide)
    run_sampleDelivered).2.2.1 samplePdu
    (genuine_samplePdu rfl (SameKeys.setCount sampleContext 0 1)) (by decide)

end Radian.Nas

/-! ### NAS messages in order -/

namespace Radian.Nas.NasSecurityContext

open Security (Bytes Algorithms)

variable {Msg : Type} (A : Algorithms) (C : Codec Msg) (direction : UInt8)

/-- Protect messages, each with its security header type. -/
def sendAll (tx : NasSecurityContext) : List (Msg × UInt8) → Option (List Bytes)
  | [] => some []
  | (m, sht) :: rest => do
      let (pdu, tx) ← tx.protect A C m sht direction
      let pdus ← tx.sendAll rest
      return pdu :: pdus

/-- What comes of the PDUs. -/
def receiveAll (rx : NasSecurityContext) : List Bytes → List (Option Msg)
  | [] => []
  | pdu :: rest =>
      let (m, rx) := rx.unprotect A C pdu direction
      m :: rx.receiveAll rest

variable {A C direction} {tx rx : NasSecurityContext}

/-- The next message is accepted, and the two go on together. -/
theorem unprotect_next (hinv : A.Involutive) (hcodec : C.Inverts) (hkeys : SameKeys tx rx)
    (hcount : rx.count direction = tx.count direction) (hlt : (tx.count direction).toNat < 2 ^ 24)
    {m : Msg} {sht : UInt8} {pdu : Bytes} {tx' : NasSecurityContext}
    (hsend : tx.protect A C m sht direction = some (pdu, tx')) :
    rx.unprotect A C pdu direction = (some m, rx.setCount direction (tx.count direction + 1)) ∧
      tx' = tx.setCount direction (tx.count direction + 1) := by
  obtain ⟨bytes, hencode, hpdu⟩ := Option.bind_eq_some_iff.mp hsend
  obtain ⟨rfl, rfl⟩ := Prod.mk.inj (Option.some.inj hpdu)
  have hestimate : estimate (rx.count direction)
      (tx.envelope A (tx.count direction) bytes sht direction).sn = tx.count direction := by
    rw [hcount]
    exact estimate_of_window hlt (Nat.le_refl _) (Nat.lt_add_of_pos_right (by decide))
  have hverifies : Verifies A rx (tx.envelope A (tx.count direction) bytes sht direction)
      direction := by
    constructor
    · rw [hestimate, hcount]
      exact BitVec.le_refl _
    · rw [hestimate, hkeys.mac_eq]
      rfl
  rw [unprotect_of_verifies (Envelope.ofBytes_toBytes _) hverifies, hestimate]
  refine ⟨Prod.ext ?_ rfl, rfl⟩
  exact decode_envelope hinv hcodec hkeys hencode

/-- In the order they were protected in, all messages are accepted. -/
theorem receiveAll_sendAll (hinv : A.Involutive) (hcodec : C.Inverts) (hkeys : SameKeys tx rx)
    (hcount : rx.count direction = tx.count direction) {ms : List (Msg × UInt8)}
    (hlast : (tx.count direction).toNat + ms.length ≤ 2 ^ 24) {pdus : List Bytes}
    (hsend : tx.sendAll A C direction ms = some pdus) :
    rx.receiveAll A C direction pdus = ms.map fun m => some m.1 := by
  induction ms generalizing tx rx pdus with
  | nil =>
    obtain rfl := Option.some.inj hsend
    rfl
  | cons m ms ih =>
    obtain ⟨m, sht⟩ := m
    obtain ⟨⟨pdu, tx'⟩, hfirst, hrest⟩ := Option.bind_eq_some_iff.mp hsend
    obtain ⟨pdus, hpdus, heq⟩ := Option.bind_eq_some_iff.mp hrest
    obtain rfl := Option.some.inj heq
    rw [List.length_cons] at hlast
    obtain ⟨hreceive, rfl⟩ := unprotect_next hinv hcodec hkeys hcount (by omega) hfirst
    have hnext : (tx.count direction + 1).toNat = (tx.count direction).toNat + 1 := by bv_omega
    rw [receiveAll, hreceive, List.map_cons]
    refine congrArg (some m :: ·) (ih ?_ ?_ ?_ hpdus)
    · exact ((SameKeys.setCount tx direction _).symm.trans hkeys).trans (SameKeys.setCount rx direction _)
    · rw [count_setCount, count_setCount]
    · rw [count_setCount, hnext]
      omega

/-- What comes of the first PDUs does not depend on the others. -/
theorem receiveAll_prefix {pdus pdus' : List Bytes} (h : pdus' <+: pdus) :
    rx.receiveAll A C direction pdus' <+: rx.receiveAll A C direction pdus := by
  induction pdus' generalizing rx pdus with
  | nil => exact List.nil_prefix
  | cons pdu pdus' ih =>
    obtain ⟨rest, rfl⟩ := h
    rw [List.cons_append, receiveAll, receiveAll]
    exact List.cons_prefix_cons.mpr ⟨rfl, ih (List.prefix_append _ _)⟩

end Radian.Nas.NasSecurityContext
