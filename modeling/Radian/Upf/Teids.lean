import Mathlib.Data.BitVec
import Radian.Tickets.Basic
import Radian.Upf.Serve

/-!
# TEIDs

Uplink TEIDs and downlink N9 ingress TEIDs come from one 32-bit counter that wraps and never looks at
the sessions.

- `opening` — the establishment that a turn accepts.
- `UniqueTeids` — no TEID belongs to two sessions or to one session twice, and none is zero.
- `teids_unique_iff` — so it is throughout a run exactly when each session that is opened gets TEIDs
  that are not zero and not in use.
- `unique_of_few` — in particular while fewer than `2 ^ 32` TEIDs have been drawn.
-/

namespace Radian.Pfcp

/-- The TEIDs that traffic of a session comes in under. -/
def Session.teids (t : Session) : List Teid := t.n3Teid :: t.dlIngressTeid.toList

namespace UpfState

/-- The TEIDs of a session, none when it does not exist. -/
def teidsOf (s : UpfState) (seid : Seid) : List Teid :=
  ((s.sessions.lookup seid).map Session.teids).getD []

def UniqueTeids (s : UpfState) : Prop := Tickets.Distinct s.teidsOf

section Lookups

variable {s : UpfState} {seid : Seid} {t : Session}

theorem teidsOf_some (h : s.sessions.lookup seid = some t) : s.teidsOf seid = t.teids := by
  rw [teidsOf, h, Option.map_some, Option.getD_some]

theorem teidsOf_fresh (h : s.nextSeid ≤ seid) : s.teidsOf seid = [] := by
  rw [teidsOf, s.fresh seid h, Option.map_none, Option.getD_none]

/-- A TEID leads to one session. -/
theorem UniqueTeids.session (h : s.UniqueTeids) (hsession : s.sessions.lookup seid = some t)
    {seid' : Seid} {t' : Session} (hsession' : s.sessions.lookup seid' = some t') {teid : Teid}
    (hteid : teid ∈ t.teids) (hteid' : teid ∈ t'.teids) : seid = seid' ∧ t = t' := by
  have hsame : seid = seid' := by
    apply Tickets.Distinct.owner h
    · rw [teidsOf_some hsession]
      exact hteid
    · rw [teidsOf_some hsession']
      exact hteid'
  subst hsame
  exact ⟨rfl, Option.mem_unique hsession hsession'⟩

/-- The session found by its uplink TEID is the one that has it. -/
theorem UniqueTeids.byTeid (h : s.UniqueTeids) (hsession : s.sessions.lookup seid = some t) :
    s.byTeid t.n3Teid = some (seid, t) := by
  rcases hfound : s.byTeid t.n3Teid with _ | ⟨seid', t'⟩
  · have hother := Keyed.Map.find?_eq_none hfound hsession
    simp at hother
  · obtain ⟨hsession', hteid⟩ := Keyed.Map.find?_eq_some hfound
    have hmem : t.n3Teid ∈ t'.teids := by
      rw [← beq_iff_eq.mp hteid]
      exact List.mem_cons_self
    obtain ⟨rfl, rfl⟩ := h.session hsession hsession' List.mem_cons_self hmem
    rfl

/-- No downlink comes in under an uplink TEID. -/
theorem UniqueTeids.downlinkViaN9Ingress (h : s.UniqueTeids)
    (hsession : s.sessions.lookup seid = some t) : s.downlinkViaN9Ingress t.n3Teid = none := by
  rw [UpfState.downlinkViaN9Ingress, Option.bind_eq_none_iff]
  intro e hfound
  obtain ⟨hsession', hingress⟩ := Keyed.Map.find?_eq_some hfound
  have hmem : t.n3Teid ∈ e.2.dlIngressTeid.toList := by
    rw [beq_iff_eq.mp hingress]
    exact List.mem_singleton_self _
  obtain ⟨-, rfl⟩ := h.session hsession hsession' List.mem_cons_self (List.mem_cons_of_mem _ hmem)
  have hown := h.own seid
  rw [teidsOf_some hsession] at hown
  exact absurd hmem (List.nodup_cons.mp hown).1

end Lookups

end UpfState

/-! ### What a message does to the TEIDs -/

/-- How many TEIDs a session needs. -/
def teidsWanted (msg : Message) : Nat := if wantsDlIngress msg then 2 else 1

/-- Nobody gets a TEID. -/
structure NoneDrawn (s s' : UpfState) : Prop where
  nextTeid : s'.nextTeid = s.nextTeid
  nextSeid : s'.nextSeid = s.nextSeid
  teids : ∀ seid, s'.teidsOf seid = s.teidsOf seid ∨ s'.teidsOf seid = []

/-- A new session gets the next TEIDs. -/
structure Drawn (s : UpfState) (k : Nat) (s' : UpfState) : Prop where
  nextTeid : s'.nextTeid = s.nextTeid + .ofNat 32 k
  nextSeid : s'.nextSeid = s.nextSeid + 1
  teids : s'.teidsOf = Function.update s.teidsOf s.nextSeid (Tickets.draw s.nextTeid k)

theorem teids_modify (t : Session) (msg : Message) (nowNanos : Nat) :
    (t.modify msg nowNanos).teids = t.teids := by
  apply modify_kept
  intro c t
  cases c <;> rfl

/-- What leaves the TEIDs of each session in place. -/
theorem NoneDrawn.of_lookup {s s' : UpfState} (hnextTeid : s'.nextTeid = s.nextTeid)
    (hnextSeid : s'.nextSeid = s.nextSeid)
    (hlookup : ∀ seid, (s'.sessions.lookup seid).map Session.teids =
      (s.sessions.lookup seid).map Session.teids) : NoneDrawn s s' := by
  refine ⟨hnextTeid, hnextSeid, fun seid => Or.inl ?_⟩
  rw [UpfState.teidsOf, UpfState.teidsOf, hlookup]

theorem NoneDrawn.onSession {s : UpfState} {upSeid : Seid} {f : Session → Session}
    (hf : ∀ t, s.sessions.lookup upSeid = some t → (f t).teids = t.teids) :
    NoneDrawn s (s.onSession upSeid f) := by
  apply NoneDrawn.of_lookup
  · rfl
  · rfl
  · intro seid
    rw [UpfState.lookup_onSession]
    split
    · rename_i hsame
      rw [hsame]
      rcases hsession : s.sessions.lookup upSeid with _ | t
      · rfl
      · simp only [Option.map_some, hf t hsession]
    · rfl

theorem NoneDrawn.remove (s : UpfState) (upSeid : Seid) : NoneDrawn s (s.remove upSeid).2 := by
  refine ⟨rfl, rfl, fun seid => ?_⟩
  simp only [UpfState.teidsOf, UpfState.remove, Keyed.Map.lookup_erase_eq]
  split
  · exact Or.inr rfl
  · exact Or.inl rfl

theorem Established.drawn {msg : Message} {s s' : UpfState} {nowNanos : Nat}
    {peer : Option IpAddr} {cpSeid : Seid} {ids : Seid × Teid × Option Teid}
    (h : Established msg s nowNanos peer cpSeid ids s') : Drawn s (teidsWanted msg) s' := by
  have hestablished := h.established
  unfold UpfState.establish at hestablished
  split at hestablished
  · exact absurd hestablished (by simp)
  · obtain ⟨-, rfl⟩ := Prod.mk.inj (Option.some_inj.mp hestablished)
    constructor
    · cases hwants : wantsDlIngress msg <;> simp [teidsWanted, hwants]
    · rfl
    · funext seid
      rw [UpfState.teidsOf, Keyed.Map.lookup_insert_eq]
      by_cases hnew : seid = s.nextSeid
      · rw [if_pos hnew, hnew, Function.update_self]
        cases hwants : wantsDlIngress msg <;>
          simp [Session.teids, UpfState.newSession, teidsWanted, Tickets.draw, hwants,
            List.range_succ]
      · rw [if_neg hnew, Function.update_of_ne hnew]
        rfl

end Radian.Pfcp

namespace Radian.Upf

open Pfcp (Teid Seid Session UpfState Codec Message NoneDrawn Drawn teidsWanted handleMessage)

section Turn

variable {D : Type} (codec : Codec D) (nodeIp : Pfcp.Ipv4Addr)

/-! ### Turns -/

/-- The establishment request that a turn accepts, if UP-SEIDs are left. -/
def opening (s : UpfState) : Input D → Option Message
  | .n4 d =>
      (codec.parse d.data).filter fun msg =>
        msg.msgType = .sessionEstablishmentRequest && msg.fseids.head?.join.isSome &&
          s.sessionCount < s.maxSessions
  | _ => none

/-- How many TEIDs a turn hands out. -/
def teidsDrawn (s : UpfState) (i : Input D) : Nat :=
  ((opening codec s i).map teidsWanted).getD 0

/-- The TEIDs that a turn hands out are not zero, and no session has them. -/
def TeidsFree (s : UpfState) (i : Input D) : Prop :=
  ∀ msg ∈ opening codec s i, ∀ teid ∈ Tickets.draw s.nextTeid (teidsWanted msg),
    teid ≠ 0 ∧ ∀ seid, teid ∉ s.teidsOf seid

/-- What a turn does to the TEIDs. -/
inductive TeidStep (s s' : UpfState) : Option Message → Prop
  | none : NoneDrawn s s' → TeidStep s s' none
  | drawn {msg} : Drawn s (teidsWanted msg) s' → TeidStep s s' (some msg)

variable {codec} {s : UpfState}

theorem teids_of_standing {t t' : Session} (h : standing t' = standing t) : t'.teids = t.teids := by
  simp only [standing, Standing.mk.injEq] at h
  rw [Session.teids, Session.teids, h.1, h.2.1]

theorem noneDrawn_inPlace {s' : UpfState} (h : InPlace s s') : NoneDrawn s s' := by
  obtain ⟨upSeid, f, rfl, hf⟩ := h
  exact .onSession fun t ht => teids_of_standing (hf t ht)

theorem teidStep_establishment {d : Pfcp.Datagram D} {msg : Message}
    (hleft : s.nextSeid ≠ Pfcp.maxSeid) (hparse : codec.parse d.data = some msg)
    (htype : msg.msgType = .sessionEstablishmentRequest) :
    TeidStep s (handleMessage msg nodeIp s d.nowNanos (some d.peer)).2
      (opening codec s (.n4 d)) := by
  have hopening : opening codec s (.n4 d) =
      if msg.fseids.head?.join.isSome ∧ s.sessionCount < s.maxSessions then some msg else none := by
    simp [opening, hparse, Option.filter_some, htype]
  rw [hopening]
  simp only [handleMessage, htype, Pfcp.handleEstablishment]
  rcases hfseid : msg.fseids.head?.join with _ | cpSeid
  · exact .none (noneDrawn_inPlace (.refl s))
  · by_cases hfull : s.maxSessions ≤ s.sessionCount
    · rw [if_neg fun h => absurd h.2 (by omega)]
      simp only [hfull, if_true]
      exact .none (noneDrawn_inPlace (.refl s))
    · simp only [hfull, if_false]
      rw [if_pos ⟨rfl, by omega⟩]
      split
      · rename_i hnone
        simp [UpfState.establish, hleft] at hnone
      · rename_i upSeid teid dlIngressTeid s' hsome
        exact .drawn (Pfcp.Established.drawn ⟨hfseid, by omega, hsome⟩)

/-- Each turn opens a session or hands out nothing. -/
theorem teidStep_serve (codec : Codec D) (hleft : s.nextSeid ≠ Pfcp.maxSeid) (i : Input D) :
    TeidStep s (serve codec nodeIp s i) (opening codec s i) := by
  cases i with
  | n4 d =>
    have hteids : ∀ {o : Option Message}, TeidStep s (Pfcp.deliver codec nodeIp s d) o →
        TeidStep s (serve codec nodeIp s (.n4 d)) o := by
      intro o h
      cases h with
      | none h => exact .none ⟨h.nextTeid, h.nextSeid, h.teids⟩
      | drawn h => exact .drawn ⟨h.nextTeid, h.nextSeid, h.teids⟩
    apply hteids
    unfold Pfcp.deliver Pfcp.handleN4From
    rcases hparse : codec.parse d.data with _ | msg
    · simp only [opening, hparse, Option.filter_none]
      exact .none (noneDrawn_inPlace (.refl s))
    · by_cases htype : msg.msgType = .sessionEstablishmentRequest
      · exact teidStep_establishment nodeIp hleft hparse htype
      · have hnone : opening codec s (.n4 d) = none := by
          simp [opening, hparse, Option.filter_some, htype]
        rw [hnone]
        apply TeidStep.none
        have heffect := Pfcp.effect_handleMessage msg nodeIp s d.nowNanos (some d.peer)
        dsimp only
        generalize (handleMessage msg nodeIp s d.nowNanos (some d.peer)).2 = s' at heffect ⊢
        cases heffect with
        | nothing => exact noneDrawn_inPlace (.refl s)
        | established h => exact absurd h htype
        | @modified upSeid t =>
          have hmodify : NoneDrawn s (s.onSession upSeid fun t => t.modify msg d.nowNanos) :=
            .onSession fun t _ => Pfcp.teids_modify t msg d.nowNanos
          exact ⟨hmodify.nextTeid, hmodify.nextSeid, hmodify.teids⟩
        | removed => exact .remove s _
  | rehash entries =>
    apply TeidStep.none
    apply NoneDrawn.of_lookup
    · simp only [serve, rehash]
      split <;> rfl
    · simp only [serve, rehash]
      split <;> rfl
    · intro seid
      rw [serve, lookup_rehash]
  | _ => exact .none (noneDrawn_inPlace (inPlace_serve codec nodeIp s (by simp) (by simp)))

/-- A turn leaves the TEIDs unique exactly when those it hands out are free. -/
theorem unique_serve_iff (i : Input D) (hleft : s.nextSeid ≠ Pfcp.maxSeid) (h : s.UniqueTeids) :
    (serve codec nodeIp s i).UniqueTeids ↔ TeidsFree codec s i := by
  have hstep := teidStep_serve nodeIp codec hleft i
  unfold TeidsFree
  generalize opening codec s i = o at hstep ⊢
  cases hstep with
  | none hnone => exact iff_of_true (h.leave hnone.teids) (by simp)
  | drawn hdrawn =>
    rename_i msg
    have hnodup : (Tickets.draw s.nextTeid (teidsWanted msg)).Nodup := by
      apply Tickets.nodup_draw
      unfold teidsWanted
      split <;> decide
    rw [UpfState.UniqueTeids, hdrawn.teids,
      Tickets.distinct_grant_iff (UpfState.teidsOf_fresh (BitVec.le_refl _)) hnodup h]
    simp

/-- With `n` TEIDs handed out so far. -/
structure Counted (n : Nat) (s : UpfState) : Prop where
  unique : s.UniqueTeids
  counted : Tickets.Counted n s.nextTeid s.teidsOf
  seids : s.nextSeid.toNat ≤ n + 1

theorem counted_serve {n : Nat} (i : Input D) (h : Counted n s)
    (hfew : n + teidsDrawn codec s i < 2 ^ 32) :
    Counted (n + teidsDrawn codec s i) (serve codec nodeIp s i) := by
  have hleft : s.nextSeid ≠ Pfcp.maxSeid := by
    intro hmax
    have hseids := h.seids
    rw [hmax, Pfcp.maxSeid, BitVec.toNat_allOnes] at hseids
    omega
  have hstep := teidStep_serve nodeIp codec hleft i
  unfold teidsDrawn at hfew ⊢
  generalize opening codec s i = o at hstep hfew ⊢
  cases hstep with
  | none hnone =>
    constructor
    · exact h.unique.leave hnone.teids
    · rw [hnone.nextTeid]
      exact h.counted.leave hnone.teids
    · rw [hnone.nextSeid]
      exact h.seids
  | drawn hdrawn =>
    rename_i msg
    obtain ⟨hcounted, hunique⟩ := h.counted.grant h.unique
      (UpfState.teidsOf_fresh (BitVec.le_refl _)) hfew
    rw [Option.map_some, Option.getD_some]
    constructor
    · rw [UpfState.UniqueTeids, hdrawn.teids]
      exact hunique
    · rw [hdrawn.teids, hdrawn.nextTeid]
      exact hcounted
    · have hpos : 0 < teidsWanted msg := by
        unfold teidsWanted
        split <;> decide
      have hseids := h.seids
      rw [hdrawn.nextSeid, Pfcp.toNat_next hleft]
      omega

end Turn

/-! ### Runs -/

section Runs

variable {D : Type} (codec : Codec D) (nodeIp : Pfcp.Ipv4Addr) (recoveryTime maxSessions : Nat)

theorem teidsOf_started (seid : Seid) :
    (Pfcp.started recoveryTime maxSessions).teidsOf seid = [] := by
  have hnone : (Pfcp.started recoveryTime maxSessions).sessions.lookup seid = none :=
    AList.lookup_empty seid
  rw [UpfState.teidsOf, hnone, Option.map_none, Option.getD_none]

theorem counted_started : Counted 0 (Pfcp.started recoveryTime maxSessions) := by
  constructor
  · rw [UpfState.UniqueTeids, funext (teidsOf_started recoveryTime maxSessions)]
    exact .nothing
  · constructor
    · rfl
    · intro seid teid hteid
      rw [teidsOf_started] at hteid
      exact absurd hteid List.not_mem_nil
  · exact Nat.le_refl 1

/-- Fewer than `2 ^ 32` TEIDs are all different. -/
theorem unique_of_few (inputs : List (Input D))
    (hfew : Runs.tally (serve codec nodeIp) (teidsDrawn codec)
      (Pfcp.started recoveryTime maxSessions) inputs < 2 ^ 32) :
    (Runs.run (serve codec nodeIp) (Pfcp.started recoveryTime maxSessions) inputs).UniqueTeids := by
  rw [← Nat.zero_add (Runs.tally _ _ _ _)] at hfew
  have hcounted := Runs.invariant_within (I := Counted)
    (fun n s i h hfew => counted_serve nodeIp i h hfew) (counted_started recoveryTime maxSessions)
    hfew
  exact hcounted.unique

/-- While there are UP-SEIDs left, the TEIDs are unique throughout a run exactly when each session that
is opened gets TEIDs that are not zero and not in use. -/
theorem teids_unique_iff (inputs : List (Input D))
    (hleft : Runs.Along (serve codec nodeIp) (fun s _ => s.nextSeid ≠ Pfcp.maxSeid)
      (Pfcp.started recoveryTime maxSessions) inputs) :
    Runs.Along (serve codec nodeIp) (fun s i => (serve codec nodeIp s i).UniqueTeids)
        (Pfcp.started recoveryTime maxSessions) inputs ↔
      Runs.Along (serve codec nodeIp) (TeidsFree codec) (Pfcp.started recoveryTime maxSessions)
        inputs :=
  Runs.along_after_iff (fun _ i hleft h => unique_serve_iff nodeIp i hleft h) hleft
    (counted_started recoveryTime maxSessions).unique

end Runs

/-! ### Once round the counter -/

/-- A session with one TEID. -/
def openRequest : Message :=
  Pfcp.sessionEstablishmentRequest 7 1 0x0A000001 ⟨some 0x0A2D0002, none⟩ "internet" none [] none

def openSession : Input Message := fromSmf openRequest

def deleteSession (upSeid : Seid) : Input Message := fromSmf (Pfcp.sessionDeletionRequest upSeid 3)

/-- Sessions come and go, one after the other. -/
def churn (upSeid : Seid) : Nat → List (Input Message)
  | 0 => []
  | n + 1 => openSession :: deleteSession upSeid :: churn (upSeid + 1) n

/-- A session of the SMF is opened. -/
structure SessionOpened (s s' : UpfState) : Prop where
  drawn : Drawn s 1 s'
  maxSessions : s'.maxSessions = s.maxSessions
  session : ∃ t, t.peerIp = some (.v4 0x0A000001) ∧
    s'.sessions = s.sessions.insert s.nextSeid t

/-- Nothing but the counters has moved, by `n`. -/
structure Turned (n : Nat) (s s' : UpfState) : Prop where
  sessions : s'.sessions = s.sessions
  maxSessions : s'.maxSessions = s.maxSessions
  nextTeid : s'.nextTeid = s.nextTeid + .ofNat 32 n
  nextSeid : s'.nextSeid = s.nextSeid + .ofNat 64 n

section Churn

variable {s : UpfState}

theorem opened_openSession (nodeIp : Pfcp.Ipv4Addr) (hroom : s.sessionCount < s.maxSessions)
    (hleft : s.nextSeid ≠ Pfcp.maxSeid) :
    SessionOpened s (serve Codec.direct nodeIp s openSession) := by
  have hstep := teidStep_serve nodeIp Codec.direct hleft openSession
  have hopening : opening Codec.direct s openSession = some openRequest := by
    simp [opening, openSession, fromSmf, Codec.direct, Option.filter_some, openRequest,
      Pfcp.sessionEstablishmentRequest, hroom]
  rw [hopening] at hstep
  cases hstep with
  | drawn hdrawn =>
    have heffect :=
      Pfcp.effect_handleMessage openRequest nodeIp s 0 (some (.v4 0x0A000001))
    have hnext : (handleMessage openRequest nodeIp s 0 (some (.v4 0x0A000001))).2.nextSeid =
        s.nextSeid + 1 := hdrawn.nextSeid
    have hopened : ∃ t, Pfcp.Opened s (some (.v4 0x0A000001)) t
        (handleMessage openRequest nodeIp s 0 (some (.v4 0x0A000001))).2 := by
      generalize (handleMessage openRequest nodeIp s 0 (some (.v4 0x0A000001))).2 = s'
        at heffect hnext ⊢
      cases heffect with
      | nothing =>
        have hmoved := congrArg BitVec.toNat hnext
        rw [Pfcp.toNat_next hleft] at hmoved
        omega
      | established _ h => exact h.opened
      | modified h => exact absurd h (by decide)
      | removed h => exact absurd h (by decide)
    obtain ⟨t, hopened⟩ := hopened
    exact ⟨hdrawn, hopened.maxSessions, t, hopened.bound, hopened.sessions⟩

/-- A session that is opened and deleted again. -/
theorem turned_one (nodeIp : Pfcp.Ipv4Addr) {s' : UpfState} (h : SessionOpened s s') :
    Turned 1 s (serve Codec.direct nodeIp s' (deleteSession s.nextSeid)) := by
  obtain ⟨t, hbound, hsessions⟩ := h.session
  have hfound : s'.sessions.lookup s.nextSeid = some t := by
    rw [hsessions, Keyed.Map.lookup_insert_eq, if_pos rfl]
  have hrefuses : Pfcp.refuses s' (some (.v4 0x0A000001)) s.nextSeid = false := by
    simp [Pfcp.refuses, UpfState.sessionPeer, hfound, hbound]
  have hremoved : Pfcp.deliver Codec.direct nodeIp s'
      ⟨.v4 0x0A000001, Pfcp.sessionDeletionRequest s.nextSeid 3, 0⟩ =
        (s'.remove s.nextSeid).2 := by
    have hsome := UpfState.remove_some hfound
    simp only [Pfcp.deliver, Pfcp.handleN4From, Codec.direct, handleMessage,
      Pfcp.sessionDeletionRequest, Pfcp.handleDeletion, hrefuses, Bool.false_eq_true, if_false]
    rw [hsome]
  have hnew : s.nextSeid ∉ s.sessions :=
    AList.lookup_eq_none.mp (s.fresh s.nextSeid (BitVec.le_refl _))
  have hback : (s.sessions.insert s.nextSeid t).erase s.nextSeid = s.sessions := by
    apply AList.ext
    calc ((s.sessions.insert s.nextSeid t).erase s.nextSeid).entries
        = List.kerase s.nextSeid (⟨s.nextSeid, t⟩ :: s.sessions.entries) :=
          congrArg (List.kerase s.nextSeid) (AList.entries_insert_of_notMem hnew)
      _ = s.sessions.entries := List.kerase_cons_eq rfl
  have hafter : ∀ {A : Type} (g : UpfState → A),
      g (Pfcp.deliver Codec.direct nodeIp s'
        ⟨.v4 0x0A000001, Pfcp.sessionDeletionRequest s.nextSeid 3, 0⟩) =
      g (s'.remove s.nextSeid).2 := fun g => congrArg g hremoved
  constructor
  · rw [← hback, ← hsessions]
    exact hafter UpfState.sessions
  · exact (hafter UpfState.maxSessions).trans h.maxSessions
  · exact (hafter UpfState.nextTeid).trans h.drawn.nextTeid
  · exact (hafter UpfState.nextSeid).trans h.drawn.nextSeid

theorem Turned.trans {m n : Nat} {s₁ s₂ : UpfState} (h : Turned m s s₁) (h' : Turned n s₁ s₂) :
    Turned (m + n) s s₂ := by
  constructor
  · exact h'.sessions.trans h.sessions
  · exact h'.maxSessions.trans h.maxSessions
  · rw [h'.nextTeid, h.nextTeid, BitVec.add_assoc, BitVec.ofNat_add]
  · rw [h'.nextSeid, h.nextSeid, BitVec.add_assoc, BitVec.ofNat_add]

theorem turned_churn (nodeIp : Pfcp.Ipv4Addr) (n : Nat) (hroom : s.sessionCount < s.maxSessions)
    (hleft : s.nextSeid.toNat + n < 2 ^ 64) :
    Turned n s (Runs.run (serve Codec.direct nodeIp) s (churn s.nextSeid n)) := by
  induction n generalizing s with
  | zero => exact ⟨rfl, rfl, (BitVec.add_zero _).symm, (BitVec.add_zero _).symm⟩
  | succ n ih =>
    have hmax : s.nextSeid ≠ Pfcp.maxSeid := by
      intro hmax
      rw [hmax, Pfcp.maxSeid, BitVec.toNat_allOnes] at hleft
      omega
    have hone := turned_one nodeIp (opened_openSession nodeIp hroom hmax)
    rw [churn, Runs.run_cons, Runs.run_cons]
    generalize serve Codec.direct nodeIp (serve Codec.direct nodeIp s openSession)
      (deleteSession s.nextSeid) = s₁ at hone ⊢
    have hnext : s₁.nextSeid = s.nextSeid + 1 := hone.nextSeid
    rw [← hnext, Nat.add_comm n 1]
    apply hone.trans
    apply ih
    · rw [UpfState.sessionCount, hone.sessions, hone.maxSessions]
      exact hroom
    · rw [hnext, Pfcp.toNat_next hmax]
      omega

/-- The session that is opened once the counters have been moved on by `n`. -/
theorem teidsOf_churn (nodeIp : Pfcp.Ipv4Addr) (n : Nat) {seid : Seid} {teid : Teid}
    (hseid : s.nextSeid = seid) (hteid : s.nextTeid = teid)
    (hroom : s.sessionCount < s.maxSessions) (hleft : seid.toNat + n < 2 ^ 64 - 1) :
    (Runs.run (serve Codec.direct nodeIp) s (churn seid n ++ [openSession])).teidsOf =
      Function.update s.teidsOf (seid + .ofNat 64 n) [teid + .ofNat 32 n] := by
  subst hseid hteid
  have hturned := turned_churn nodeIp n hroom (by omega)
  rw [Runs.run_append, Runs.run_cons, Runs.run_nil]
  generalize Runs.run (serve Codec.direct nodeIp) s (churn s.nextSeid n) = s₁ at hturned ⊢
  have hteids : s₁.teidsOf = s.teidsOf := by
    funext seid
    rw [UpfState.teidsOf, hturned.sessions, UpfState.teidsOf]
  have hmax : s₁.nextSeid ≠ Pfcp.maxSeid := by
    intro hmax
    have hcount := congrArg BitVec.toNat (hturned.nextSeid.symm.trans hmax)
    rw [Pfcp.maxSeid, BitVec.toNat_allOnes, BitVec.toNat_add, BitVec.toNat_ofNat] at hcount
    omega
  have hroom₁ : s₁.sessionCount < s₁.maxSessions := by
    rw [UpfState.sessionCount, hturned.sessions, hturned.maxSessions]
    exact hroom
  rw [(opened_openSession nodeIp hroom₁ hmax).drawn.teids, hteids, hturned.nextSeid,
    hturned.nextTeid]
  simp [Tickets.draw]

end Churn

/-- The first session has TEID 1 to itself. -/
theorem teids_unique_open :
    Runs.Along (serve Codec.direct 0x0A000003)
      (fun s i => (serve Codec.direct 0x0A000003 s i).UniqueTeids)
      (Pfcp.started 0 Pfcp.DEFAULT_MAX_SESSIONS) [openSession] := by
  have hfree : TeidsFree Codec.direct (Pfcp.started 0 Pfcp.DEFAULT_MAX_SESSIONS) openSession := by
    intro msg hmsg teid hteid
    obtain rfl : openRequest = msg := Option.some_inj.mp hmsg
    obtain rfl : teid = 1 := List.mem_singleton.mp hteid
    refine ⟨by decide, fun seid => ?_⟩
    rw [teidsOf_started]
    exact List.not_mem_nil
  exact (teids_unique_iff Codec.direct 0x0A000003 0 Pfcp.DEFAULT_MAX_SESSIONS [openSession]
    ⟨by decide, trivial⟩).mpr ⟨hfree, trivial⟩

/-- A session is opened, and the counter then goes round once before the next is. -/
def again : List (Input Message) := openSession :: (churn 2 (2 ^ 32 - 1) ++ [openSession])

theorem teidsOf_again :
    (Runs.run (serve Codec.direct 0x0A000003) (Pfcp.started 0 Pfcp.DEFAULT_MAX_SESSIONS)
        again).teidsOf =
      Function.update (serve Codec.direct 0x0A000003 (Pfcp.started 0 Pfcp.DEFAULT_MAX_SESSIONS)
        openSession).teidsOf (2 ^ 32 + 1) [1] := by
  have hround : (2 : Seid) + .ofNat 64 (2 ^ 32 - 1) = 2 ^ 32 + 1 := rfl
  have hback : (2 : Teid) + .ofNat 32 (2 ^ 32 - 1) = 1 := rfl
  rw [again, Runs.run_cons, ← hround, ← hback]
  apply teidsOf_churn
  · decide
  · decide
  · decide
  · decide

/-- After a round a TEID is given out again although its session is there, and before that zero is
given out. -/
theorem teids_not_unique :
    let turn := serve Codec.direct 0x0A000003
    let start := Pfcp.started 0 Pfcp.DEFAULT_MAX_SESSIONS
    (¬ Runs.Along turn (fun s i => (turn s i).UniqueTeids) start again) ∧
      (Runs.run turn start again).teidsOf 1 = [1] ∧
      (Runs.run turn start again).teidsOf (2 ^ 32 + 1) = [1] ∧
      (Runs.run turn start (churn 1 (2 ^ 32 - 1) ++ [openSession])).teidsOf (2 ^ 32) = [0] := by
  intro turn start
  have hone : (Runs.run turn start again).teidsOf 1 = [1] := by
    rw [teidsOf_again, Function.update_of_ne (by decide)]
    decide
  have htwo : (Runs.run turn start again).teidsOf (2 ^ 32 + 1) = [1] := by
    rw [teidsOf_again, Function.update_self]
  refine ⟨?_, hone, htwo, ?_⟩
  · intro halong
    have hunique : (Runs.run turn start again).UniqueTeids := by
      rw [again, ← List.cons_append] at halong ⊢
      rw [Runs.run_append]
      exact (Runs.along_append.mp halong).2.1
    have hsame : (1 : Seid) = 2 ^ 32 + 1 := by
      apply hunique.owner (x := 1)
      · rw [hone]
        exact List.mem_singleton_self 1
      · rw [htwo]
        exact List.mem_singleton_self 1
    exact absurd hsame (by decide)
  · have hround : (1 : Seid) + .ofNat 64 (2 ^ 32 - 1) = 2 ^ 32 := rfl
    have hback : (1 : Teid) + .ofNat 32 (2 ^ 32 - 1) = 0 := rfl
    have hseid : start.nextSeid = 1 := rfl
    have hteid : start.nextTeid = 1 := rfl
    have hzero := teidsOf_churn 0x0A000003 (2 ^ 32 - 1) hseid hteid (by decide) (by decide)
    rw [hround, hback] at hzero
    rw [hzero, Function.update_self]

end Radian.Upf
