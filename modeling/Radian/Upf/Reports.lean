import Radian.Upf.Spoofing

/-!
# Reports to the SMF

The N4 loop and the reporter, one lock at a time, over the session table and the address that reports
are sent to.

- `World` — the shared state, where each loop stands, and what was taken and sent.
- `sent_once` — every report taken out of the table is sent once, but for the one in hand.
- `reports_reach_owner_iff` — each goes to the peer that established its session exactly when that peer
  was heard last whenever the reporter reads the address.
-/

namespace Radian.Upf

open Pfcp (Packet Teid Seid Ipv4Addr IpAddr Session UpfState Codec UsageVolume Message Datagram)

/-- An address and a port. -/
abbrev SocketAddr : Type := IpAddr × UInt16

/-- A datagram on the N4 socket. -/
structure Received (D : Type) where
  peer : SocketAddr
  data : D
  nowNanos : Nat

/-- A Session Report Request, addressed by the SMF's SEID. -/
inductive Report where
  | usage (cpSeid : Seid) (usage : UsageVolume)
  | dlData (cpSeid : Seid)
  deriving DecidableEq, Repr

/-- A report taken out of the table, and the peer that established its session. -/
structure Taken where
  report : Report
  owner : Option SocketAddr
  deriving DecidableEq, Repr

/-- Where the reporter stands: about to look for a usage report, with one in hand, about to look for a
Downlink Data Report, with one in hand. -/
inductive Reporter where
  | usage
  | usageDue (due : Taken)
  | dlData
  | dlDataDue (due : Taken)
  deriving DecidableEq, Repr

/-- The report in hand. -/
def Reporter.inHand : Reporter → Option Taken
  | .usageDue due => some due
  | .dlDataDue due => some due
  | _ => none

/-- The UPF.  `owners` records who established each session, `taken` and `sent` what became of the
reports. -/
structure World (D : Type) where
  upf : UpfState
  smfAddr : Option SocketAddr
  /-- The datagram that the N4 loop has received and not handled yet. -/
  received : Option (Received D)
  reporter : Reporter
  seq : UInt32
  owners : Seid → Option SocketAddr
  taken : List Taken
  sent : List (UInt32 × Report × SocketAddr)

/-- What may come next: a datagram is received or handled, a packet passes, the table's order changes,
or the reporter goes on. -/
inductive Move (D : Type) where
  | receive (r : Received D)
  | handle
  | n3 (teid : Teid) (payload : Packet) (nowNanos : Nat)
  | n6 (pkt : Packet) (nowNanos : Nat)
  | rehash (entries : List (Sigma fun _ : Seid => Session))
  | report

namespace World

variable {D : Type}

def start (upf : UpfState) : World D :=
  { upf
    smfAddr := none
    received := none
    reporter := .usage
    seq := 1
    owners := fun _ => none
    taken := []
    sent := [] }

/-- The N4 loop remembers where a datagram came from before it looks at it. -/
def receive (w : World D) (r : Received D) : World D :=
  match w.received with
  | some _ => w
  | none => { w with smfAddr := some r.peer, received := some r }

/-- The N4 loop handles the datagram; a session that is established belongs to its sender. -/
def handle (codec : Codec D) (nodeIp : Ipv4Addr) (w : World D) : World D :=
  match w.received with
  | none => w
  | some r =>
      let upf := (serveN4 codec nodeIp w.upf
        { peer := r.peer.1, data := r.data, nowNanos := r.nowNanos }).2
      { w with
        upf
        received := none
        owners :=
          if (upf.sessions.lookup w.upf.nextSeid).isSome then
            Function.update w.owners w.upf.nextSeid (some r.peer)
          else w.owners }

/-- The report in hand goes out, or is dropped when no address is known. -/
def send (w : World D) (due : Taken) (sent notSent : Reporter) : World D :=
  match w.smfAddr with
  | none => { w with reporter := notSent }
  | some smf =>
      { w with
        reporter := sent
        seq := w.seq + 1
        sent := w.sent ++ [(w.seq + 1, due.report, smf)] }

/-- A report has been taken out of the table, about the session that was found there. -/
def hold (w : World D) (found : Session → Bool) (report : Report) (upf : UpfState)
    (inHand : Taken → Reporter) : World D :=
  let due : Taken := { report, owner := (w.upf.sessions.find? found).bind fun e => w.owners e.1 }
  { w with upf, reporter := inHand due, taken := w.taken ++ [due] }

/-- One step of the reporter. -/
def reportUsage (w : World D) : World D :=
  match w.reporter with
  | .usage =>
      match w.upf.takeDueReport with
      | (none, _) => { w with reporter := .dlData }
      | (some (cpSeid, usage), upf) =>
          w.hold (fun t => t.reportDue) (.usage cpSeid usage) upf .usageDue
  | .usageDue due => w.send due .usage .dlData
  | .dlData =>
      match w.upf.takeDlDataReport with
      | (none, _) => { w with reporter := .usage }
      | (some cpSeid, upf) => w.hold (fun t => t.dlDataReportDue) (.dlData cpSeid) upf .dlDataDue
  | .dlDataDue due => w.send due .dlData .usage

def move (codec : Codec D) (nodeIp : Ipv4Addr) (w : World D) : Move D → World D
  | .receive r => w.receive r
  | .handle => w.handle codec nodeIp
  | .n3 teid payload nowNanos => { w with upf := (N6.uplink w.upf teid payload nowNanos).2 }
  | .n6 pkt nowNanos => { w with upf := (N6.downlink w.upf pkt nowNanos).2 }
  | .rehash entries => { w with upf := rehash w.upf entries }
  | .report => w.reportUsage

/-! ### What is taken is sent -/

/-- Every report taken was sent once, in order, but for the one in hand. -/
def SentOnce (w : World D) : Prop :=
  w.taken.map Taken.report =
    w.sent.map (fun m => m.2.1) ++ (w.reporter.inHand.map Taken.report).toList

/-- And to the peer that established its session. -/
def ToOwners (w : World D) : Prop :=
  w.taken.map (fun due => (due.report, due.owner)) =
    w.sent.map (fun m => (m.2.1, some m.2.2)) ++
      (w.reporter.inHand.map fun due => (due.report, due.owner)).toList

/-- What the two loops keep between them. -/
structure Sound (w : World D) : Prop where
  heard : w.smfAddr = none → w.received = none ∧ (∀ seid, w.upf.sessions.lookup seid = none) ∧
    w.reporter.inHand = none
  owned : ∀ seid t, w.upf.sessions.lookup seid = some t →
    ∃ a, w.owners seid = some a ∧ t.peerIp = some a.1
  known : ∀ due ∈ w.taken, due.owner.isSome
  once : w.SentOnce

/-- Whenever the reporter reads the address, the peer heard last is the one the report is for. -/
def HeardLast (w : World D) : Move D → Prop
  | .report => ∀ due ∈ w.reporter.inHand, w.smfAddr = due.owner
  | _ => True

end World

/-! ### Sessions and their peers -/

section Sessions

variable {D : Type} {codec : Codec D} {nodeIp : Ipv4Addr} {s : UpfState}

/-- A session after a datagram is new and its sender's, or was there with the same peer. -/
theorem peerIp_serveN4 {d : Datagram D} {seid : Seid} {t : Session}
    (h : (serveN4 codec nodeIp s d).2.sessions.lookup seid = some t) :
    seid = s.nextSeid ∧ t.peerIp = some d.peer ∨
      ∃ u, s.sessions.lookup seid = some u ∧ t.peerIp = u.peerIp := by
  have hdeliver : (Pfcp.deliver codec nodeIp s d).sessions.lookup seid = some t := h
  unfold Pfcp.deliver Pfcp.handleN4From at hdeliver
  split at hdeliver
  · exact Or.inr ⟨t, hdeliver, rfl⟩
  · rename_i msg _
    have heffect := Pfcp.effect_handleMessage msg nodeIp s d.nowNanos (some d.peer)
    dsimp only at hdeliver
    generalize (Pfcp.handleMessage msg nodeIp s d.nowNanos (some d.peer)).2 = s'
      at heffect hdeliver
    cases heffect with
    | nothing => exact Or.inr ⟨t, hdeliver, rfl⟩
    | established _ hestablished =>
      obtain ⟨u, hopened⟩ := hestablished.opened
      rw [hopened.sessions] at hdeliver
      obtain ⟨hnew, rfl⟩ | ⟨-, hdeliver⟩ := Keyed.Map.of_lookup_insert hdeliver
      · exact Or.inl ⟨hnew, hopened.bound⟩
      · exact Or.inr ⟨t, hdeliver, rfl⟩
    | @modified y u =>
      rw [UpfState.lookup_modify] at hdeliver
      split at hdeliver
      · rename_i hsame
        obtain ⟨v, hv, rfl⟩ := Option.map_eq_some_iff.mp hdeliver
        exact Or.inr ⟨v, hsame ▸ hv, Pfcp.peerIp_modify v msg d.nowNanos⟩
      · exact Or.inr ⟨t, hdeliver, rfl⟩
    | @removed y u =>
      exact Or.inr ⟨t, (Keyed.Map.of_lookup_erase hdeliver).2, rfl⟩

/-- Other turns keep the sessions and their peers. -/
theorem lookup_inPlace {s' : UpfState} (h : InPlace s s') {seid : Seid} {t : Session}
    (ht : s'.sessions.lookup seid = some t) :
    ∃ u, s.sessions.lookup seid = some u ∧ t.peerIp = u.peerIp := by
  obtain ⟨y, f, rfl, hf⟩ := h
  rw [UpfState.lookup_onSession] at ht
  split at ht
  · rename_i hsame
    obtain ⟨u, hu, rfl⟩ := Option.map_eq_some_iff.mp ht
    exact ⟨u, hsame ▸ hu, congrArg Standing.peerIp (hf u hu)⟩
  · exact ⟨t, ht, rfl⟩

end Sessions

/-! ### One move -/

namespace World

variable {D : Type} {codec : Codec D} {nodeIp : Ipv4Addr} {w : World D}

/-- A step of the reporter: it looks in vain, takes a report, or sends the one in hand. -/
inductive ReportStep (w : World D) : World D → Prop
  | looked {next} (hempty : w.reporter.inHand = none) (hnext : Reporter.inHand next = none) :
      ReportStep w { w with reporter := next }
  | held {found report upf inHand e} (hempty : w.reporter.inHand = none)
      (hfound : w.upf.sessions.find? found = some e) (hupf : InPlace w.upf upf)
      (hinHand : ∀ due, (inHand due).inHand = some due) :
      ReportStep w (w.hold found report upf inHand)
  | sent {due sent notSent} (hinHand : w.reporter.inHand = some due)
      (hsent : Reporter.inHand sent = none) : ReportStep w (w.send due sent notSent)

theorem reportStep (w : World D) : ReportStep w w.reportUsage := by
  unfold World.reportUsage
  split
  · rename_i hreporter
    have hempty : w.reporter.inHand = none := by rw [hreporter]; rfl
    rcases hfound : w.upf.sessions.find? fun t => t.reportDue with _ | e
    · simp only [UpfState.takeDueReport, hfound]
      exact .looked hempty rfl
    · simp only [UpfState.takeDueReport, hfound]
      exact .held hempty hfound ⟨_, _, rfl, fun _ _ => rfl⟩ fun _ => rfl
  · rename_i due hreporter
    exact .sent (by rw [hreporter]; rfl) rfl
  · rename_i hreporter
    have hempty : w.reporter.inHand = none := by rw [hreporter]; rfl
    rcases hfound : w.upf.sessions.find? fun t => t.dlDataReportDue with _ | e
    · simp only [UpfState.takeDlDataReport, hfound]
      exact .looked hempty rfl
    · simp only [UpfState.takeDlDataReport, hfound]
      exact .held hempty hfound ⟨_, _, rfl, fun _ _ => rfl⟩ fun _ => rfl
  · rename_i due hreporter
    exact .sent (by rw [hreporter]; rfl) rfl

theorem Sound.of_upf (h : Sound w) {upf : UpfState}
    (hlookup : ∀ seid t, upf.sessions.lookup seid = some t →
      ∃ u, w.upf.sessions.lookup seid = some u ∧ t.peerIp = u.peerIp) :
    Sound { w with upf } := by
  constructor
  · intro hnone
    obtain ⟨hreceived, hsessions, hinHand⟩ := h.heard hnone
    refine ⟨hreceived, fun seid => ?_, hinHand⟩
    rcases ht : upf.sessions.lookup seid with _ | t
    · rfl
    · obtain ⟨u, hu, -⟩ := hlookup seid t ht
      exact absurd ((hsessions seid).symm.trans hu) (by simp)
  · intro seid t ht
    obtain ⟨u, hu, hpeer⟩ := hlookup seid t ht
    obtain ⟨a, howner, hbound⟩ := h.owned seid u hu
    exact ⟨a, howner, hpeer.trans hbound⟩
  · exact h.known
  · exact h.once

theorem Sound.receive (h : Sound w) (r : Received D) : Sound (w.receive r) := by
  unfold World.receive
  split
  · exact h
  · exact ⟨fun hnone => absurd hnone (by simp), h.owned, h.known, h.once⟩

theorem Sound.handle (h : Sound w) : Sound (w.handle codec nodeIp) := by
  unfold World.handle
  split
  · exact h
  · rename_i r hreceived
    constructor
    · intro hnone
      exact absurd (hreceived.symm.trans (h.heard hnone).1) (by simp)
    · intro seid t ht
      dsimp only at ht ⊢
      rcases peerIp_serveN4 ht with ⟨rfl, hbound⟩ | ⟨u, hu, hpeer⟩
      · rw [if_pos (by rw [ht, Option.isSome_some]), Function.update_self]
        exact ⟨r.peer, rfl, hbound⟩
      · obtain ⟨a, howner, hbound⟩ := h.owned seid u hu
        refine ⟨a, ?_, hpeer.trans hbound⟩
        have hne : seid ≠ w.upf.nextSeid := by
          rintro rfl
          rw [w.upf.fresh _ (BitVec.le_refl _)] at hu
          exact absurd hu (by simp)
        split
        · rw [Function.update_of_ne hne]
          exact howner
        · exact howner
    · exact h.known
    · exact h.once

/-- A report is taken. -/
theorem Sound.hold (h : Sound w) {found : Session → Bool} {report : Report} {upf : UpfState}
    {inHand : Taken → Reporter} {e : Seid × Session}
    (hfound : w.upf.sessions.find? found = some e) (hupf : InPlace w.upf upf)
    (hempty : w.reporter.inHand = none) (hinHand : ∀ due, (inHand due).inHand = some due) :
    Sound (w.hold found report upf inHand) := by
  obtain ⟨hsession, -⟩ := Keyed.Map.find?_eq_some hfound
  have hsound := h.of_upf fun seid t ht => lookup_inPlace hupf ht
  constructor
  · intro hnone
    exact absurd ((h.heard hnone).2.1 e.1) (by simp [hsession])
  · exact hsound.owned
  · intro due hdue
    rcases List.mem_append.mp hdue with hold | hnew
    · exact h.known due hold
    · obtain ⟨a, howner, -⟩ := h.owned e.1 e.2 hsession
      rw [List.mem_singleton.mp hnew]
      simp [hfound, howner]
  · have honce := h.once
    rw [SentOnce, hempty] at honce
    simp only [SentOnce, World.hold, hinHand, List.map_append, honce]
    simp

/-- The report in hand always finds an address to go to. -/
theorem Sound.heard_inHand (h : Sound w) {due : Taken} (hinHand : w.reporter.inHand = some due) :
    ∃ smf, w.smfAddr = some smf := by
  rcases hsmf : w.smfAddr with _ | smf
  · exact absurd (hinHand.symm.trans (h.heard hsmf).2.2) (by simp)
  · exact ⟨smf, rfl⟩

theorem Sound.send (h : Sound w) {due : Taken} {sent notSent : Reporter}
    (hinHand : w.reporter.inHand = some due) (hsent : sent.inHand = none) :
    Sound (w.send due sent notSent) := by
  obtain ⟨smf, hsmf⟩ := h.heard_inHand hinHand
  have honce := h.once
  rw [SentOnce, hinHand] at honce
  simp only [World.send, hsmf]
  constructor
  · intro hnone
    exact absurd hnone (by simp)
  · exact h.owned
  · exact h.known
  · simp only [SentOnce, hsent, honce]
    simp

theorem Sound.reportUsage (h : Sound w) : Sound w.reportUsage := by
  have hstep := reportStep w
  generalize w.reportUsage = w' at hstep ⊢
  cases hstep with
  | looked hempty hnext =>
    have honce := h.once
    rw [SentOnce, hempty] at honce
    constructor
    · intro hnone
      obtain ⟨hreceived, hsessions, -⟩ := h.heard hnone
      exact ⟨hreceived, hsessions, hnext⟩
    · exact h.owned
    · exact h.known
    · rw [SentOnce, hnext]
      exact honce
  | held hempty hfound hupf hinHand => exact h.hold hfound hupf hempty hinHand
  | sent hinHand hsent => exact h.send hinHand hsent

theorem Sound.move (h : Sound w) (m : Move D) : Sound (w.move codec nodeIp m) := by
  cases m with
  | receive r => exact h.receive r
  | handle => exact h.handle
  | n3 teid payload nowNanos =>
    have hupf := inPlace_serve codec nodeIp w.upf (i := .n3 teid payload nowNanos) (by simp) (by simp)
    exact h.of_upf fun seid t ht => lookup_inPlace hupf ht
  | n6 pkt nowNanos =>
    have hupf := inPlace_serve codec nodeIp w.upf (i := .n6 pkt nowNanos) (by simp) (by simp)
    exact h.of_upf fun seid t ht => lookup_inPlace hupf ht
  | rehash entries =>
    apply h.of_upf
    intro seid t ht
    rw [lookup_rehash] at ht
    exact ⟨t, ht, rfl⟩
  | report => exact h.reportUsage

/-- A step of the reporter sends what it has in hand to the peer heard last. -/
theorem toOwners_reportUsage_iff (hsound : Sound w) (h : w.ToOwners) :
    w.reportUsage.ToOwners ↔ ∀ due ∈ w.reporter.inHand, w.smfAddr = due.owner := by
  have hstep := reportStep w
  generalize w.reportUsage = w' at hstep ⊢
  cases hstep with
  | looked hempty hnext =>
    rw [ToOwners, hempty] at h
    simp only [ToOwners, hnext, hempty, h]
    simp
  | held hempty _ _ hinHand =>
    rw [ToOwners, hempty] at h
    simp only [ToOwners, World.hold, hinHand, hempty, List.map_append, h]
    simp
  | @sent due _ _ hinHand hsent =>
    obtain ⟨smf, hsmf⟩ := hsound.heard_inHand hinHand
    rw [ToOwners, hinHand] at h
    simp only [ToOwners, World.send, hsmf, hsent, hinHand, List.map_append, h]
    simp [eq_comm]

theorem toOwners_move_iff (m : Move D) (hsound : Sound w) (h : w.ToOwners) :
    (w.move codec nodeIp m).ToOwners ↔ w.HeardLast m := by
  cases m with
  | receive r =>
    refine iff_of_true ?_ trivial
    simp only [World.move, World.receive]
    split <;> exact h
  | handle =>
    refine iff_of_true ?_ trivial
    simp only [World.move, World.handle]
    split <;> exact h
  | report => exact toOwners_reportUsage_iff hsound h
  | _ => exact iff_of_true h trivial

end World

/-! ### Runs -/

section Runs

variable {D : Type} (codec : Codec D) (nodeIp : Ipv4Addr) (recoveryTime maxSessions : Nat)

theorem sound_start : (.start (Pfcp.started recoveryTime maxSessions) : World D).Sound := by
  have hnobody : ∀ seid, (Pfcp.started recoveryTime maxSessions).sessions.lookup seid = none :=
    AList.lookup_empty
  constructor
  · exact fun _ => ⟨rfl, hnobody, rfl⟩
  · intro seid t ht
    exact absurd (ht.symm.trans (hnobody seid)) (by simp)
  · intro due hdue
    exact absurd hdue List.not_mem_nil
  · rfl

/-- Whatever happens, no report that was taken is dropped or sent twice, and each is about a session
whose peer is known. -/
theorem sent_once (moves : List (Move D)) :
    (Runs.run (World.move codec nodeIp) (.start (Pfcp.started recoveryTime maxSessions))
      moves).Sound :=
  Runs.invariant_of_step (fun _ m h => h.move m) moves (sound_start recoveryTime maxSessions)

/-- Throughout a run each report goes to the peer that established its session exactly when the reporter
reads the address only while that peer is the one heard last. -/
theorem reports_reach_owner_iff (moves : List (Move D)) :
    Runs.Along (World.move codec nodeIp) (fun w m => (w.move codec nodeIp m).ToOwners)
        (.start (Pfcp.started recoveryTime maxSessions)) moves ↔
      Runs.Along (World.move codec nodeIp) World.HeardLast
        (.start (Pfcp.started recoveryTime maxSessions)) moves :=
  Runs.along_after_iff (fun _ m hsound h => World.toOwners_move_iff m hsound h)
    (Runs.along_of_step (fun _ m h => h.move m) moves (sound_start recoveryTime maxSessions)) rfl

end Runs

/-- A session with a report every twenty bytes. -/
def meteredRequest : Message :=
  Pfcp.sessionEstablishmentRequest 7 1 0x0A000001 ⟨some 0x0A2D0002, none⟩ "internet" none [] (some 20)

/-- The SMF establishes a session, its usage comes due, and somebody else sends a datagram that asks for
nothing before the reporter wakes up. -/
def overheard : List (Move Message) :=
  [.receive { peer := (.v4 0x0A000001, 8805), data := meteredRequest, nowNanos := 0 }, .handle,
    .n3 1 uePacket 0,
    .receive
      { peer := (.v4 0x0A000042, 4444)
        data := { msgType := .heartbeatResponse, seid := none, sequence := 1 }
        nowNanos := 0 },
    .report, .report]

instance (w : World Message) : Decidable w.ToOwners := inferInstanceAs (Decidable (_ = _))

/-- The report goes to the other one. -/
theorem reports_overheard :
    let turn := World.move Codec.direct 0x0A000003
    let start : World Message := .start (Pfcp.started 0 Pfcp.DEFAULT_MAX_SESSIONS)
    (¬ Runs.Along turn (fun w m => (turn w m).ToOwners) start overheard) ∧
      (Runs.run turn start overheard).owners 1 = some (.v4 0x0A000001, 8805) ∧
      (Runs.run turn start overheard).sent.map (fun m => (m.2.1, m.2.2)) =
        [(.usage 7 (Pfcp.Counters.volume ⟨20, 0, 1, 0⟩ 1), (.v4 0x0A000042, 4444))] := by
  decide +kernel

end Radian.Upf
