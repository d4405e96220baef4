import Mathlib.Data.List.DropRight
import Radian.Upf.Enforcement

/-!
# Idle sessions

What becomes of the downlink packets of a session whose UE has gone idle.

- `Account`, `ReportTaken` — what an idle session is owed, and the reports taken about it.
- `Kept` — the session table keeps the account.
- `idle_buffering` — each activation flushes the last packets of its idle period, each once, and the SMF
  is told once.
-/

namespace Radian.Upf

open Pfcp (Packet Teid Seid Ipv4Addr Session UpfState ipv4Addrs DL_BUFFER_CAP DEFAULT_QFI)

/-! ### One session's events -/

/-- What happens around a session: packets arrive from the data network, its downlink is installed or
cleared, and the loops drain the table. -/
inductive IdleOp where
  | arrive (pkt : Packet) (nowNanos : Nat)
  | activate (gnb : Teid × Ipv4Addr) (sendEndMarker : Bool)
  | deactivate
  | takeReport
  | takeFlush

namespace IdleOp

/-- On the session `x` of the table. -/
def apply (x : Seid) (s : UpfState) : IdleOp → UpfState
  | .arrive pkt nowNanos => (N6.downlink s pkt nowNanos).2
  | .activate gnb sendEndMarker => s.setDownlink x gnb sendEndMarker
  | .deactivate => s.clearDownlink x
  | .takeReport => s.takeDlDataReport.2
  | .takeFlush => s.takeFlush.2

end IdleOp

/-- A packet to be sent on N3. -/
abbrev Flushed : Type := Teid × Ipv4Addr × UInt8 × Packet

/-! ### The account -/

/-- What should be known of a session: whether it is idle, the packets that have arrived for it since
it has been, and the reports taken since its last activation. -/
structure Account where
  idle : Bool
  arrived : List Packet
  reports : Nat

namespace Account

def start : Account := { idle := false, arrived := [], reports := 0 }

/-- The packets that the next activation has to flush. -/
def owed (a : Account) : List Packet := a.arrived.rtake DL_BUFFER_CAP

/-- A packet to the session's address. -/
def arrive (a : Account) (pkt : Packet) : Account :=
  if a.idle then { a with arrived := a.arrived ++ [pkt] } else a

/-- A first deactivation begins an idle period, another one does not. -/
def deactivate (a : Account) : Account := if a.idle then a else { a with idle := true, arrived := [] }

end Account

/-- The UPF with the account of one session, and all that was to be flushed and was drained. -/
structure Watched where
  state : UpfState
  account : Account
  owed : List Flushed
  drained : List Flushed

/-- Whether a packet is an IPv4 packet to an address. -/
def isFor (addr : Ipv4Addr) (pkt : Packet) : Bool := (ipv4Addrs pkt).any fun p => p.2 == addr

/-- Whether the Downlink Data Report that is taken is session `x`'s: what comes out is the SMF's SEID of
`x`, and every other session owes a report after it exactly when it did before.  (Sessions of two SMFs
may have one SEID.) -/
def ReportTaken (x : Seid) (s : UpfState) : Prop :=
  s.takeDlDataReport.1.isSome = true ∧
    s.takeDlDataReport.1 = (s.sessions.lookup x).map (fun t => t.cpSeid) ∧
    ∀ y u, s.sessions.lookup y = some u → y ≠ x →
      (s.takeDlDataReport.2.sessions.lookup y).map (fun t => t.dlDataReportDue) =
        some u.dlDataReportDue

instance decidableReportTaken (x : Seid) (s : UpfState) : Decidable (ReportTaken x s) :=
  inferInstanceAs (Decidable (_ ∧ _ ∧ _))

/-- How a session's packets are stamped for a tunnel. -/
def stamp (s : UpfState) (x : Seid) (gnb : Teid × Ipv4Addr) (pkt : Packet) : Flushed :=
  (gnb.1, gnb.2, ((s.sessions.lookup x).map fun t => t.downlinkQfi pkt).getD DEFAULT_QFI, pkt)

namespace Watched

def start (s : UpfState) : Watched := { state := s, account := .start, owed := [], drained := [] }

/-- An event around session `x` with address `addr`, and what it does to the account. -/
def step (x : Seid) (addr : Ipv4Addr) (w : Watched) (op : IdleOp) : Watched :=
  let w' := { w with state := op.apply x w.state }
  match op with
  | .arrive pkt _ => if isFor addr pkt then { w' with account := w.account.arrive pkt } else w'
  | .activate gnb _ =>
      { w' with account := .start, owed := w.owed ++ w.account.owed.map (stamp w.state x gnb) }
  | .deactivate => { w' with account := w.account.deactivate }
  | .takeReport =>
      if ReportTaken x w.state then
        { w' with account := { w.account with reports := w.account.reports + 1 } }
      else w'
  | .takeFlush => { w' with drained := w.drained ++ w.state.takeFlush.1 }

end Watched

/-! ### The buffer -/

/-- Holding a packet drops the oldest one beyond the cap. -/
theorem dlBuffer_buffer {t : Session} {arrived : List Packet}
    (h : t.dlBuffer = arrived.rtake DL_BUFFER_CAP) (pkt : Packet) :
    (t.buffer pkt).dlBuffer = (arrived ++ [pkt]).rtake DL_BUFFER_CAP := by
  have hcap : DL_BUFFER_CAP = 63 + 1 := rfl
  have hlength : t.dlBuffer.length = min DL_BUFFER_CAP arrived.length := by
    rw [h, List.rtake, List.length_drop]
    omega
  rw [hcap, List.rtake_concat_succ]
  simp only [Session.buffer]
  congr 1
  split
  · rename_i hfull
    rw [h, List.rtake, List.rtake, List.tail_drop]
    congr 1
    omega
  · rename_i hroom
    rw [h, List.rtake, List.rtake]
    have hshort : arrived.length ≤ 63 := by omega
    rw [Nat.sub_eq_zero_of_le hshort, Nat.sub_eq_zero_of_le (by omega)]

/-- A session keeps its account. -/
structure Keeps (a : Account) (t : Session) : Prop where
  buffering : t.buffering = a.idle
  parked : a.idle = true → t.downlink = none
  buffer : t.dlBuffer = a.owed
  active : a.idle = false → a.arrived = []
  due : t.dlDataReportDue = true ↔ a.arrived ≠ [] ∧ a.reports = 0
  quiet : a.arrived = [] → a.reports = 0
  once : a.reports ≤ 1

namespace Keeps

variable {a : Account} {t : Session}

/-- What neither parks the session nor touches its buffer or its report. -/
theorem of_same {t' : Session} (h : Keeps a t) (hbuffering : t'.buffering = t.buffering)
    (hdownlink : t'.downlink = t.downlink) (hbuffer : t'.dlBuffer = t.dlBuffer)
    (hdue : t'.dlDataReportDue = t.dlDataReportDue) : Keeps a t' := by
  constructor
  · rw [hbuffering, h.buffering]
  · rw [hdownlink]
    exact h.parked
  · rw [hbuffer, h.buffer]
  · exact h.active
  · rw [hdue]
    exact h.due
  · exact h.quiet
  · exact h.once

theorem admitPacket (h : Keeps a t) (nowNanos : Nat) (pkt : Packet) :
    Keeps a (t.admitPacket false nowNanos pkt).2 := by
  obtain ⟨_, _, _, _, _, htouches⟩ := Pfcp.admitPacket_touches false nowNanos pkt t
  rw [htouches]
  exact h.of_same rfl rfl rfl rfl

/-- A packet is held. -/
theorem arrive (h : Keeps a t) (hidle : a.idle = true) (pkt : Packet) :
    Keeps (a.arrive pkt) (t.buffer pkt) := by
  have hempty : t.dlBuffer = [] ↔ a.arrived = [] := by
    rw [h.buffer, Account.owed, List.rtake, List.drop_eq_nil_iff]
    have hcap : DL_BUFFER_CAP = 64 := rfl
    rw [← List.length_eq_zero_iff]
    omega
  rw [Account.arrive, if_pos hidle]
  constructor
  · exact h.buffering
  · exact h.parked
  · exact dlBuffer_buffer h.buffer pkt
  · intro hactive
    exact absurd (hidle.symm.trans hactive) (by simp)
  · simp only [Session.buffer, Bool.or_eq_true, List.isEmpty_iff, hempty, h.due]
    constructor
    · rintro (hnone | ⟨-, hreports⟩)
      · exact ⟨by simp, h.quiet hnone⟩
      · exact ⟨by simp, hreports⟩
    · rintro ⟨-, hreports⟩
      by_cases hnone : a.arrived = []
      · exact Or.inl hnone
      · exact Or.inr ⟨hnone, hreports⟩
  · intro hnone
    exact absurd hnone (by simp)
  · exact h.once

theorem activate (t : Session) (gnb : Teid × Ipv4Addr) : Keeps .start (t.setDownlink gnb) := by
  constructor
  · rfl
  · exact fun hidle => absurd hidle Bool.false_ne_true
  · rfl
  · exact fun _ => rfl
  · simp [Session.setDownlink, Account.start]
  · exact fun _ => rfl
  · exact Nat.zero_le 1

theorem deactivate (h : Keeps a t) : Keeps a.deactivate t.clearDownlink := by
  unfold Account.deactivate
  split
  · rename_i hidle
    exact ⟨hidle.symm, fun _ => rfl, h.buffer, h.active, h.due, h.quiet, h.once⟩
  · rename_i hactive
    rw [Bool.not_eq_true] at hactive
    have hnone := h.active hactive
    have hbuffer := h.buffer
    have hdue := h.due
    rw [Account.owed, hnone] at hbuffer
    rw [hnone] at hdue
    exact ⟨rfl, fun _ => rfl, hbuffer, fun _ => rfl, hdue, fun _ => h.quiet hnone, h.once⟩

theorem takeReport (h : Keeps a t) (hdue : t.dlDataReportDue = true) :
    Keeps { a with reports := a.reports + 1 } t.takeDlDataReport := by
  obtain ⟨hsome, hreports⟩ := h.due.mp hdue
  constructor
  · exact h.buffering
  · exact h.parked
  · exact h.buffer
  · exact h.active
  · simp [Session.takeDlDataReport]
  · exact fun hnone => absurd hnone hsome
  · rw [hreports]

end Keeps

/-! ### The session in its table -/

/-- The session `x` has an address to itself. -/
structure Owns (s : UpfState) (x : Seid) (addr : Ipv4Addr) (t : Session) : Prop where
  session : s.sessions.lookup x = some t
  address : t.ueIp = some addr
  sole : ∀ y u, s.sessions.lookup y = some u → u.ueIp = some addr → y = x

namespace Owns

variable {s : UpfState} {x : Seid} {addr : Ipv4Addr} {t : Session}

theorem of_sessions {s' : UpfState} (h : Owns s x addr t) (hsessions : s'.sessions = s.sessions) :
    Owns s' x addr t := by
  constructor
  · rw [hsessions, h.session]
  · exact h.address
  · rw [hsessions]
    exact h.sole

/-- A session changes that keeps its address. -/
theorem onSession (h : Owns s x addr t) (y : Seid) {f : Session → Session}
    (hf : ∀ u, (f u).ueIp = u.ueIp) :
    Owns (s.onSession y f) x addr (if x = y then f t else t) := by
  constructor
  · rw [UpfState.lookup_onSession]
    split
    · rename_i hsame
      rw [← hsame, h.session, Option.map_some]
    · exact h.session
  · split
    · rw [hf, h.address]
    · exact h.address
  · intro z u hz hu
    rw [UpfState.lookup_onSession] at hz
    split at hz
    · rename_i hsame
      obtain ⟨v, hv, rfl⟩ := Option.map_eq_some_iff.mp hz
      rw [hf] at hu
      rw [hsame]
      exact h.sole y v hv hu
    · exact h.sole z u hz hu

theorem byUeIp (h : Owns s x addr t) : s.byUeIp addr = some (x, t) := by
  rcases hfound : s.byUeIp addr with _ | ⟨y, u⟩
  · have hother := Keyed.Map.find?_eq_none hfound h.session
    simp [h.address] at hother
  · obtain ⟨hu, haddr⟩ := Keyed.Map.find?_eq_some hfound
    obtain rfl := h.sole y u hu (beq_iff_eq.mp haddr)
    rw [Option.mem_unique h.session hu]

/-- A packet to the address is held while the session buffers. -/
theorem bufferDownlink (h : Owns s x addr t) (pkt : Packet) :
    s.bufferDownlink addr pkt =
      if t.buffering then (true, s.onSession x fun t => t.buffer pkt) else (false, s) := by
  unfold UpfState.bufferDownlink
  split
  · rename_i hfound
    have hother := Keyed.Map.find?_eq_none hfound h.session
    rw [if_neg]
    simpa [h.address] using hother
  · rename_i y u hfound
    obtain ⟨hu, hmatch⟩ := Keyed.Map.find?_eq_some hfound
    rw [Bool.and_eq_true, beq_iff_eq] at hmatch
    obtain rfl := h.sole y u hu hmatch.1
    obtain rfl := Option.mem_unique h.session hu
    rw [if_pos hmatch.2]

end Owns

/-! ### Packets -/

/-- A packet is held for a session with its destination address. -/
theorem downlink_buffered (s : UpfState) (pkt : Packet) (nowNanos : Nat)
    (h : (N6.downlink s pkt nowNanos).1 = .buffered) :
    ∃ src dst y u, ipv4Addrs pkt = some (src, dst) ∧ s.sessions.lookup y = some u ∧
      u.ueIp = some dst ∧
      (N6.downlink s pkt nowNanos).2 = s.onSession y fun t => t.buffer pkt := by
  unfold N6.downlink at h ⊢
  rcases hv4 : ipv4Addrs pkt with _ | ⟨src, dst⟩
  · simp only [hv4] at h
    split at h
    · split at h
      · exact absurd h (by simp)
      · split at h <;> exact absurd h (by simp)
    · exact absurd h (by simp)
  · simp only [hv4] at h ⊢
    split at h
    · unfold UpfState.bufferDownlink at h ⊢
      rcases hfound : s.sessions.find? fun t => t.ueIp == some dst && t.buffering with _ | ⟨y, u⟩
      · simp [hfound] at h
      · obtain ⟨hu, hmatch⟩ := Keyed.Map.find?_eq_some hfound
        rw [Bool.and_eq_true, beq_iff_eq] at hmatch
        exact ⟨src, dst, y, u, rfl, hu, hmatch.1, by rw [hfound]⟩
    · split at h <;> exact absurd h (by simp)

section Arrivals

variable {s : UpfState} {x : Seid} {addr : Ipv4Addr} {t : Session} {pkt : Packet}

theorem isFor_iff : isFor addr pkt = true ↔ ∃ src, ipv4Addrs pkt = some (src, addr) := by
  rw [isFor]
  rcases ipv4Addrs pkt with _ | ⟨src, dst⟩ <;> simp

/-- A packet to the session: forwarded or policed, held, or dropped. -/
theorem downlink_own (h : Owns s x addr t) (nowNanos : Nat) (hfor : isFor addr pkt = true) :
    (N6.downlink s pkt nowNanos).2 =
      if t.downlink.isSome then s.onSession x fun t => (t.admitPacket false nowNanos pkt).2
      else if t.buffering then s.onSession x fun t => t.buffer pkt else s := by
  obtain ⟨src, hv4⟩ := isFor_iff.mp hfor
  unfold N6.downlink
  simp only [hv4, UpfState.routeDownlinkMarked, UpfState.marked, h.byUeIp, Option.bind_some]
  rcases htunnel : t.downlink with _ | gnb
  · simp only [Option.map_none, h.bufferDownlink, Option.isSome_none, Bool.false_eq_true, if_false]
    cases t.buffering <;> rfl
  · simp only [Option.map_some, UpfState.admitDownlink, h.byUeIp, UpfState.admitFound,
      Option.isSome_some, if_true]
    cases (t.admitPacket false nowNanos pkt).1 <;> rfl

/-- Any other packet finds the session as it was, or is metered by it. -/
theorem downlink_other (h : Owns s x addr t) (nowNanos : Nat) (hfor : isFor addr pkt = false) :
    ∃ t', Owns (N6.downlink s pkt nowNanos).2 x addr t' ∧
      (t' = t ∨ t' = (t.admitPacket false nowNanos pkt).2) := by
  have hstep := N6.downlink_step s pkt nowNanos
  have hbuffered := downlink_buffered s pkt nowNanos
  generalize N6.downlink s pkt nowNanos = r at hstep hbuffered ⊢
  cases hstep with
  | admitted hadmission =>
    obtain ⟨huplink, hnow, hpkt⟩ := N6.downlinkAdmission_packet hadmission
    refine ⟨_, h.onSession _ fun u => ?_, ?_⟩
    · exact congrArg Standing.ueIp (standing_admitPacket _ _ _ u)
    · rw [huplink, hnow, hpkt]
      split
      · exact Or.inr rfl
      · exact Or.inl rfl
  | held =>
    obtain ⟨src, dst, y, u, hv4, hu, haddr, hafter⟩ := hbuffered rfl
    have hne : x ≠ y := by
      rintro rfl
      obtain rfl := Option.mem_unique h.session hu
      obtain rfl := Option.mem_unique h.address haddr
      rw [isFor_iff.mpr ⟨src, hv4⟩] at hfor
      exact Bool.noConfusion hfor
    dsimp only at hafter
    rw [hafter]
    refine ⟨_, h.onSession y fun u => rfl, ?_⟩
    rw [if_neg hne]
    exact Or.inl rfl
  | dropped => exact ⟨t, h, Or.inl rfl⟩

end Arrivals

/-! ### Reports -/

/-- How many sessions owe a report. -/
def due (s : UpfState) : Nat := s.sessions.entries.countP fun e => e.2.dlDataReportDue

section Reports

variable {s : UpfState} {x y : Seid} {u : Session}

theorem takeDlDataReport_found (h : s.sessions.find? (fun t => t.dlDataReportDue) = some (y, u)) :
    s.takeDlDataReport = (some u.cpSeid, s.onSession y fun t => t.takeDlDataReport) := by
  rw [UpfState.takeDlDataReport, h]

/-- The report that is taken is that of the session that is found. -/
theorem reportTaken_iff (h : s.sessions.find? (fun t => t.dlDataReportDue) = some (y, u)) :
    ReportTaken x s ↔ y = x := by
  obtain ⟨hu, hdue⟩ := Keyed.Map.find?_eq_some h
  rw [ReportTaken, takeDlDataReport_found h]
  constructor
  · rintro ⟨-, -, hothers⟩
    by_contra hne
    have hkept := hothers y u hu hne
    rw [UpfState.lookup_onSession, if_pos rfl, hu, hdue] at hkept
    exact absurd hkept (by simp [Session.takeDlDataReport])
  · rintro rfl
    refine ⟨rfl, by rw [hu, Option.map_some], ?_⟩
    intro z v hv hne
    rw [UpfState.lookup_onSession, if_neg hne, hv, Option.map_some]

/-- Each report that is taken leaves one less to take. -/
theorem due_takeDlDataReport
    (h : s.sessions.find? (fun t => t.dlDataReportDue) = some (y, u)) :
    due s.takeDlDataReport.2 < due s := by
  obtain ⟨hu, hdue⟩ := Keyed.Map.find?_eq_some h
  rw [takeDlDataReport_found h]
  exact Keyed.Map.countP_adjust_lt (fun _ hd => absurd hd Bool.false_ne_true) hu hdue rfl

end Reports

/-! ### Events -/

/-- The session keeps its account, and all that was owed was drained or waits to be. -/
structure Settled (x : Seid) (addr : Ipv4Addr) (before : List Flushed) (w : Watched) : Prop where
  kept : ∃ t, Owns w.state x addr t ∧ Keeps w.account t
  flushed : w.drained ++ w.state.pendingFlush = before ++ w.owed

namespace Settled

variable {x : Seid} {addr : Ipv4Addr} {before : List Flushed} {w : Watched}

theorem pendingFlush_downlink (s : UpfState) (pkt : Packet) (nowNanos : Nat) :
    (N6.downlink s pkt nowNanos).2.pendingFlush = s.pendingFlush := by
  have hstep := N6.downlink_step s pkt nowNanos
  generalize N6.downlink s pkt nowNanos = r at hstep ⊢
  cases hstep with
  | admitted => rfl
  | held => rfl
  | dropped => rfl

theorem arrive (h : Settled x addr before w) (pkt : Packet) (nowNanos : Nat) :
    Settled x addr before (w.step x addr (.arrive pkt nowNanos)) := by
  obtain ⟨t, howns, hkeeps⟩ := h.kept
  have hflushed : w.drained ++ (N6.downlink w.state pkt nowNanos).2.pendingFlush =
      before ++ w.owed := by
    rw [pendingFlush_downlink]
    exact h.flushed
  cases hfor : isFor addr pkt with
  | true =>
    simp only [Watched.step, IdleOp.apply, hfor, if_true]
    refine ⟨?_, hflushed⟩
    dsimp only
    rw [downlink_own howns nowNanos hfor]
    cases hidle : w.account.idle with
    | true =>
      rw [hkeeps.parked hidle, hkeeps.buffering, hidle]
      exact ⟨_, howns.onSession x fun u => rfl, by
        rw [if_pos rfl]; exact hkeeps.arrive hidle pkt⟩
    | false =>
      rw [Account.arrive, hidle, hkeeps.buffering, hidle]
      split
      · refine ⟨_, howns.onSession x fun u => ?_, ?_⟩
        · exact congrArg Standing.ueIp (standing_admitPacket _ _ _ u)
        · rw [if_pos rfl]
          exact hkeeps.admitPacket nowNanos pkt
      · exact ⟨t, howns, hkeeps⟩
  | false =>
    simp only [Watched.step, IdleOp.apply, hfor, Bool.false_eq_true, if_false]
    refine ⟨?_, hflushed⟩
    obtain ⟨t', howns', hsame⟩ := downlink_other howns nowNanos hfor
    refine ⟨t', howns', ?_⟩
    rcases hsame with rfl | rfl
    · exact hkeeps
    · exact hkeeps.admitPacket nowNanos pkt

/-- An activation flushes what it owes. -/
theorem pendingFlush_setDownlink {s : UpfState} {t : Session} {a : Account}
    (howns : Owns s x addr t) (hkeeps : Keeps a t) (gnb : Teid × Ipv4Addr) (sendEndMarker : Bool) :
    (s.setDownlink x gnb sendEndMarker).pendingFlush =
      s.pendingFlush ++ a.owed.map (stamp s x gnb) := by
  simp only [UpfState.setDownlink, howns.session, Session.flush, hkeeps.buffer]
  congr 1
  apply List.map_congr_left
  intro pkt _
  rw [stamp, howns.session, Option.map_some, Option.getD_some]

theorem activate (h : Settled x addr before w) (gnb : Teid × Ipv4Addr) (sendEndMarker : Bool) :
    Settled x addr before (w.step x addr (.activate gnb sendEndMarker)) := by
  obtain ⟨t, howns, hkeeps⟩ := h.kept
  constructor
  · have howns' : Owns (w.state.setDownlink x gnb sendEndMarker) x addr (t.setDownlink gnb) := by
      have hchanged := howns.onSession x (f := fun t => t.setDownlink gnb) fun u => rfl
      rw [if_pos rfl] at hchanged
      apply hchanged.of_sessions
      simp only [UpfState.setDownlink, howns.session]
    exact ⟨_, howns', .activate t gnb⟩
  · simp only [Watched.step, IdleOp.apply, pendingFlush_setDownlink howns hkeeps]
    rw [← List.append_assoc, h.flushed, List.append_assoc]

theorem deactivate (h : Settled x addr before w) :
    Settled x addr before (w.step x addr .deactivate) := by
  obtain ⟨t, howns, hkeeps⟩ := h.kept
  refine ⟨⟨_, howns.onSession x fun u => rfl, ?_⟩, h.flushed⟩
  rw [if_pos rfl]
  exact hkeeps.deactivate

theorem takeReport (h : Settled x addr before w) :
    Settled x addr before (w.step x addr .takeReport) := by
  obtain ⟨t, howns, hkeeps⟩ := h.kept
  rcases hfound : w.state.sessions.find? fun t => t.dlDataReportDue with _ | ⟨y, u⟩
  · have hnone : w.state.takeDlDataReport = (none, w.state) := by
      rw [UpfState.takeDlDataReport, hfound]
    simp only [Watched.step, IdleOp.apply, ReportTaken, hnone, Option.isSome_none,
      Bool.false_eq_true, false_and, if_false]
    exact ⟨⟨t, howns, hkeeps⟩, h.flushed⟩
  · obtain ⟨hu, hdue⟩ := Keyed.Map.find?_eq_some hfound
    have howns' := howns.onSession y (f := fun t => t.takeDlDataReport) fun u => rfl
    simp only [Watched.step, IdleOp.apply, reportTaken_iff hfound, takeDlDataReport_found hfound]
    by_cases hsame : y = x
    · subst hsame
      obtain rfl := Option.mem_unique howns.session hu
      rw [if_pos rfl] at howns' ⊢
      exact ⟨⟨_, howns', hkeeps.takeReport hdue⟩, h.flushed⟩
    · rw [if_neg fun heq => hsame heq.symm] at howns'
      rw [if_neg hsame]
      exact ⟨⟨t, howns', hkeeps⟩, h.flushed⟩

theorem takeFlush (h : Settled x addr before w) :
    Settled x addr before (w.step x addr .takeFlush) := by
  obtain ⟨t, howns, hkeeps⟩ := h.kept
  refine ⟨⟨t, howns.of_sessions rfl, hkeeps⟩, ?_⟩
  simp only [Watched.step, IdleOp.apply, UpfState.takeFlush, List.append_nil]
  exact h.flushed

theorem step (h : Settled x addr before w) (op : IdleOp) :
    Settled x addr before (w.step x addr op) := by
  cases op with
  | arrive pkt nowNanos => exact h.arrive pkt nowNanos
  | activate gnb sendEndMarker => exact h.activate gnb sendEndMarker
  | deactivate => exact h.deactivate
  | takeReport => exact h.takeReport
  | takeFlush => exact h.takeFlush

theorem reports_eq_one (h : Settled x addr before w) (hsome : w.account.reports ≠ 0) :
    w.account.reports = 1 := by
  obtain ⟨t, -, hkeeps⟩ := h.kept
  have honce := hkeeps.once
  omega

/-- A taken report, of whatever session, leaves one less to take and the packets held. -/
theorem takeReport_next (h : Settled x addr before w) (hheld : w.account.arrived ≠ [])
    (hnone : w.account.reports = 0) :
    due (w.step x addr .takeReport).state < due w.state ∧
      (w.step x addr .takeReport).account.arrived = w.account.arrived := by
  obtain ⟨t, howns, hkeeps⟩ := h.kept
  have ht : t.dlDataReportDue = true := hkeeps.due.mpr ⟨hheld, hnone⟩
  rcases hfound : w.state.sessions.find? fun t => t.dlDataReportDue with _ | ⟨y, u⟩
  · have hother := Keyed.Map.find?_eq_none hfound howns.session
    exact absurd (hother.symm.trans ht) Bool.false_ne_true
  have hless := due_takeDlDataReport hfound
  simp only [Watched.step, IdleOp.apply]
  split
  · exact ⟨hless, rfl⟩
  · exact ⟨hless, rfl⟩

/-- Once a packet is held, taking reports takes the session's, whatever other sessions owe. -/
theorem drained_report (h : Settled x addr before w) (hheld : w.account.arrived ≠ []) {n : Nat}
    (hdue : due w.state ≤ n) :
    ∃ m, (Runs.run (Watched.step x addr) w (List.replicate m .takeReport)).account.reports = 1 := by
  -- by induction on the number of reports to take
  induction n generalizing w with
  | zero =>
    by_cases hnone : w.account.reports = 0
    · have hless := (h.takeReport_next hheld hnone).1
      omega
    · exact ⟨0, h.reports_eq_one hnone⟩
  | succ n ih =>
    by_cases hnone : w.account.reports = 0
    · obtain ⟨hless, harrived⟩ := h.takeReport_next hheld hnone
      rw [← harrived] at hheld
      obtain ⟨m, hm⟩ := ih h.takeReport hheld (by omega)
      exact ⟨m + 1, hm⟩
    · exact ⟨0, h.reports_eq_one hnone⟩

end Settled

/-! ### Runs -/

section Runs

variable {s₀ s : UpfState} {cpSeid : Seid} {peer : Option Pfcp.IpAddr} {ue : Pfcp.UeAddr}
  {ambr : Option Pfcp.SessionAmbr} {flows : List Pfcp.FlowQer} {usageThreshold : Option Nat}
  {nowNanos : Nat} {uplink : Pfcp.Egress} {branches : List Pfcp.Branch} {wantsDlIngress : Bool}
  {x : Seid} {n3Teid : Teid} {dlIngressTeid : Option Teid} {addr : Ipv4Addr}

/-- A new session owes nothing yet. -/
theorem settled_start
    (hestablish : s₀.establish cpSeid peer ue ambr flows usageThreshold nowNanos uplink branches
      wantsDlIngress = some ((x, n3Teid, dlIngressTeid), s))
    (haddr : ue.v4 = some addr)
    (hsole : ∀ y u, s₀.sessions.lookup y = some u → u.ueIp ≠ some addr) :
    Settled x addr s.pendingFlush (.start s) := by
  unfold UpfState.establish at hestablish
  split at hestablish
  · exact absurd hestablish (by simp)
  · obtain ⟨hids, rfl⟩ := Prod.mk.inj (Option.some_inj.mp hestablish)
    obtain ⟨rfl, -⟩ := Prod.mk.inj hids
    refine ⟨⟨_, ⟨Keyed.Map.lookup_insert_eq _ _ _ _ |>.trans (if_pos rfl), haddr, ?_⟩, ?_⟩, ?_⟩
    · intro y u hu hue
      rw [Watched.start, Keyed.Map.lookup_insert_eq] at hu
      split at hu
      · assumption
      · exact absurd hue (hsole y u hu)
    · constructor
      · rfl
      · exact fun hidle => absurd hidle Bool.false_ne_true
      · rfl
      · exact fun _ => rfl
      · simp [UpfState.newSession, Watched.start, Account.start]
      · exact fun _ => rfl
      · exact Nat.zero_le 1
    · simp [Watched.start]

/-- However packets, activations, deactivations and drains follow one another on a session that has its
IPv4 address to itself: an activation flushes to the new tunnel the last packets that have arrived
since the session went idle, in order; a drain hands out all that is flushed, each packet once, and
leaves none; between two activations at most one report is taken, and once a packet is held one is
taken or due, so that taking what is due takes it; and packets are held only while the session is
idle. -/
theorem idle_buffering
    (hestablish : s₀.establish cpSeid peer ue ambr flows usageThreshold nowNanos uplink branches
      wantsDlIngress = some ((x, n3Teid, dlIngressTeid), s))
    (haddr : ue.v4 = some addr)
    (hsole : ∀ y u, s₀.sessions.lookup y = some u → u.ueIp ≠ some addr) (ops : List IdleOp) :
    let w := Runs.run (Watched.step x addr) (.start s) ops
    (∀ gnb sendEndMarker, (w.state.setDownlink x gnb sendEndMarker).pendingFlush =
        w.state.pendingFlush ++ w.account.owed.map (stamp w.state x gnb)) ∧
      w.drained ++ w.state.pendingFlush = s.pendingFlush ++ w.owed ∧
      w.drained ++ w.state.takeFlush.1 = s.pendingFlush ++ w.owed ∧
      w.state.takeFlush.2.pendingFlush = [] ∧
      w.account.reports ≤ 1 ∧
      ∃ t, w.state.sessions.lookup x = some t ∧ t.dlBuffer = w.account.owed ∧
        (t.dlBuffer ≠ [] → t.dlDataReportDue = true ∨ w.account.reports = 1) ∧
        (t.dlBuffer ≠ [] → ∃ n, (Runs.run (Watched.step x addr) w
          (List.replicate n .takeReport)).account.reports = 1) ∧
        (t.dlBuffer ≠ [] → t.buffering = true) := by
  intro w
  have hsettled : Settled x addr s.pendingFlush w :=
    Runs.invariant_of_step (fun _ op h => h.step op) ops (settled_start hestablish haddr hsole)
  obtain ⟨t, howns, hkeeps⟩ := hsettled.kept
  have harrived : t.dlBuffer ≠ [] → w.account.arrived ≠ [] := by
    intro hheld hnone
    rw [hkeeps.buffer, Account.owed, hnone] at hheld
    exact hheld (List.rtake_nil _)
  refine ⟨?_, hsettled.flushed, hsettled.flushed, rfl, hkeeps.once, t, howns.session, hkeeps.buffer,
    ?_, fun hheld => hsettled.drained_report (harrived hheld) le_rfl, ?_⟩
  · intro gnb sendEndMarker
    exact Settled.pendingFlush_setDownlink howns hkeeps gnb sendEndMarker
  · intro hheld
    by_cases hreports : w.account.reports = 0
    · exact Or.inl (hkeeps.due.mpr ⟨harrived hheld, hreports⟩)
    · exact Or.inr (hsettled.reports_eq_one hreports)
  · intro hheld
    rw [hkeeps.buffering]
    by_contra hactive
    rw [Bool.not_eq_true] at hactive
    rw [hkeeps.buffer, Account.owed, hkeeps.active hactive] at hheld
    exact hheld (List.rtake_nil _)

end Runs

/-- One packet comes while the UE is away. -/
theorem idle_buffering_once :
    ∃ s : UpfState,
      let w := Runs.run (Watched.step 1 0x0A2D0002) (.start s)
        [.deactivate, .arrive heldPacket 0, .takeReport, .activate (9, 0x0A000009) false, .takeFlush]
      w.drained ++ w.state.pendingFlush = s.pendingFlush ++ w.owed ∧ w.account.reports ≤ 1 := by
  obtain ⟨⟨ids, s⟩, hestablish⟩ : ∃ r, (Pfcp.started 0 1).establish 7 none ⟨some 0x0A2D0002, none⟩
      none [] none 0 .toN6 [] false = some r := Option.isSome_iff_exists.mp (by decide)
  have hids : ids = (1, 1, none) := by
    have hfirst := congrArg (Option.map Prod.fst) hestablish
    exact (Option.some_inj.mp hfirst).symm
  subst hids
  have hsole : ∀ y u, (Pfcp.started 0 1).sessions.lookup y = some u → u.ueIp ≠ some 0x0A2D0002 := by
    intro y u hu
    exact absurd (hu.symm.trans (AList.lookup_empty y)) (by simp)
  obtain ⟨-, hflushed, -, -, honce, -⟩ := idle_buffering hestablish rfl hsole
    [.deactivate, .arrive heldPacket 0, .takeReport, .activate (9, 0x0A000009) false, .takeFlush]
  exact ⟨s, hflushed, honce⟩

end Radian.Upf
