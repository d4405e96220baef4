import Radian.Nrf.Registry

/-!
# Discovery and soft state

What the NRF answers to a discovery, and that nobody can tell how late it drops an expired
registration.

- `serves`, `NrfStore.discover`, `NrfStore.list` — discovery by type, slice and DNN, and the list of
  all instances.
- `World.arrive` — the registry as it is, which drops what has expired when somebody looks.
- `World.arriveEager` — a registry in which a registration is gone the moment it expires.
- `lazy_iff_eager` — both answer alike over a run exactly when no registration is refused for the sake
  of an expired one.
-/

namespace Radian.Nrf

open Keyed (Map)
open Sbi (Jose)

/-! ### Discovery -/

/-- The slice of a query, when it has one. -/
def SnssaiSmfInfoItem.inSlice (item : SnssaiSmfInfoItem) (snssai : Option (UInt8 × Option String)) :
    Bool :=
  match snssai with
  | none => true
  | some (sst, sd) =>
      item.sst == sst &&
        match item.sd, sd with
        | some a, some b => Text.eqIgnoreAsciiCase a.toList b.toList
        | none, none => true
        | _, _ => false

/-- The SMF serves `dnn`, in the slice if one is given. -/
def serves (info : List SnssaiSmfInfoItem) (snssai : Option (UInt8 × Option String)) (dnn : String) :
    Bool :=
  info.any fun item => item.inSlice snssai && item.dnns.any fun d => d == dnn

structure DiscoveryQuery where
  targetNfType : String
  snssaiSst : Option UInt8 := none
  snssaiSd : Option String := none
  dnn : Option String := none
  deriving DecidableEq, Repr

/-- The filters of a discovery. -/
def DiscoveryQuery.selects (q : DiscoveryQuery) (profile : NfProfile) : Bool :=
  Text.eqIgnoreAsciiCase profile.nfType.toList q.targetNfType.toList &&
    match q.dnn with
    | some dnn => profile.smfInfo.any fun info =>
        serves info (q.snssaiSst.map fun sst => (sst, q.snssaiSd)) dnn
    | none => true

namespace NrfStore

variable {SigningKey VerifyingKey : Type}

def profiles (s : NrfStore SigningKey) : List NfProfile := s.entries.entries.map fun e => e.2.profile

def list (s : NrfStore SigningKey) (now : Nat) : List NfProfile × NrfStore SigningKey :=
  ((s.purgeStale now).profiles, s.purgeStale now)

def discover (s : NrfStore SigningKey) (now : Nat) (q : DiscoveryQuery) :
    List NfProfile × NrfStore SigningKey :=
  ((s.purgeStale now).profiles.filter q.selects, s.purgeStale now)

/-- **Discovery** answers with the profiles that are alive and that the query selects. -/
theorem mem_discover {s : NrfStore SigningKey} {now : Nat} {q : DiscoveryQuery} {profile : NfProfile} :
    profile ∈ (s.discover now q).1 ↔
      (∃ id x, s.entries.lookup id = some x ∧ s.alive now x = true ∧ x.profile = profile) ∧
        q.selects profile = true := by
  rw [discover, List.mem_filter, profiles, List.mem_map]
  refine and_congr_left fun _ => ⟨?_, ?_⟩
  · rintro ⟨⟨id, x⟩, hmem, rfl⟩
    obtain ⟨hx, halive⟩ := World.lookup_purgeStale.mp (Map.lookup_eq_some_iff.mpr hmem)
    exact ⟨id, x, hx, halive, rfl⟩
  · rintro ⟨id, x, hx, halive, rfl⟩
    exact ⟨⟨id, x⟩, Map.lookup_eq_some_iff.mp (World.lookup_purgeStale.mpr ⟨hx, halive⟩), rfl⟩

/-! ### Registries that agree on what is alive -/

/-- The registries have the same settings and the same live registrations. -/
def Agrees (now : Nat) (s s' : NrfStore SigningKey) : Prop :=
  ∃ m, s' = { s with entries := m } ∧ s.entries.Live s.alive now = m.Live s.alive now

variable {s s' : NrfStore SigningKey} {now now' : Nat}

theorem alive_antitone (s : NrfStore SigningKey) (hnow : now ≤ now') (e : Entry)
    (h : s.alive now' e = true) : s.alive now e = true := by
  rw [alive, decide_eq_true_iff] at h ⊢
  omega

theorem alive_heard (s : NrfStore SigningKey) (now : Nat) (profile : NfProfile)
    (certFp : Option String) : s.alive now { profile, lastSeen := now, certFp } = true := by
  rw [alive, Nat.sub_self, decide_eq_true_iff]
  exact Nat.zero_le _

namespace Agrees

theorem refl (now : Nat) (s : NrfStore SigningKey) : Agrees now s s := ⟨s.entries, rfl, rfl⟩

theorem later (h : Agrees now s s') (hnow : now ≤ now') : Agrees now' s s' := by
  obtain ⟨m, rfl, hlive⟩ := h
  exact ⟨m, rfl, Map.live_later (s.alive_antitone hnow) hlive⟩

/-- Dropping what has expired changes nothing that is alive. -/
theorem purgeStale (h : Agrees now s s') : Agrees now s (s'.purgeStale now) := by
  obtain ⟨m, rfl, hlive⟩ := h
  exact ⟨m.retain (s.alive now), rfl, hlive.trans (Map.live_retain now m).symm⟩

theorem purgeStale_left (h : Agrees now s s') : Agrees now (s.purgeStale now) s' := by
  obtain ⟨m, rfl, hlive⟩ := h
  exact ⟨m, rfl, (Map.live_retain now s.entries).trans hlive⟩

/-- What a look at the purged registries finds. -/
theorem lookup (h : Agrees now s s') (id : String) :
    (s.purgeStale now).entries.lookup id = (s'.purgeStale now).entries.lookup id := by
  obtain ⟨m, rfl, hlive⟩ := h
  rw [NrfStore.purgeStale, NrfStore.purgeStale, Map.lookup_retain_alive, hlive]
  exact (Map.lookup_retain_alive now m id).symm

theorem profiles (h : Agrees now s s') :
    (s.purgeStale now).profiles.Perm (s'.purgeStale now).profiles := by
  obtain ⟨m, rfl, hlive⟩ := h
  exact (Map.perm_retain hlive).map _

theorem insert (h : Agrees now s s') (id : String) (profile : NfProfile) (certFp : Option String) :
    Agrees now { s with entries := s.entries.insert id { profile, lastSeen := now, certFp } }
      { s' with entries := s'.entries.insert id { profile, lastSeen := now, certFp } } := by
  obtain ⟨m, rfl, hlive⟩ := h
  refine ⟨m.insert id { profile, lastSeen := now, certFp }, rfl, ?_⟩
  funext k
  have hheard := s.alive_heard now profile certFp
  have hleft := Map.live_insert hheard s.entries id k
  have hright := Map.live_insert hheard m id k
  rw [hlive] at hleft
  exact hleft.trans hright.symm

theorem heartbeat (h : Agrees now s s') (id : String) :
    (s.heartbeat now id).1 = (s'.heartbeat now id).1 ∧
      Agrees now (s.heartbeat now id).2 (s'.heartbeat now id).2 := by
  have hpurged := h.purgeStale_left.purgeStale
  simp only [NrfStore.heartbeat, ← h.lookup id]
  cases (s.purgeStale now).entries.lookup id with
  | none => exact ⟨rfl, hpurged⟩
  | some x => exact ⟨rfl, hpurged.insert id x.profile x.certFp⟩

theorem deregister (h : Agrees now s s') (id : String) :
    Agrees now (s.deregister id).2 (s'.deregister id).2 := by
  obtain ⟨m, rfl, hlive⟩ := h
  refine ⟨m.erase id, rfl, ?_⟩
  funext k
  have hleft := Map.live_erase s.alive now s.entries id k
  have hright := Map.live_erase s.alive now m id k
  rw [hlive] at hleft
  exact hleft.trans hright.symm

theorem accessToken (J : Jose SigningKey VerifyingKey) (upper : String → String)
    (h : Agrees now s s') (wall : Nat) (cert : Option String) (req : Sbi.AccessTokenReq) :
    (s.accessToken J upper now wall cert req).1 = (s'.accessToken J upper now wall cert req).1 ∧
      Agrees now (s.accessToken J upper now wall cert req).2
        (s'.accessToken J upper now wall cert req).2 := by
  have hpurged := h.purgeStale_left.purgeStale
  have hlookup := h.lookup req.nfInstanceId
  obtain ⟨m, rfl, hlive⟩ := h
  have hpolicy : ∀ s : NrfStore SigningKey, (s.purgeStale now).authzPolicy = s.authzPolicy :=
    fun _ => rfl
  have hsigner : (NrfStore.purgeStale { s with entries := m } now).signer =
      (s.purgeStale now).signer := rfl
  have hoauth : NrfStore.oauthEnabled { s with entries := m } = s.oauthEnabled := rfl
  simp only [NrfStore.accessToken, hoauth, hpolicy, hsigner, ← hlookup]
  split
  next => exact ⟨rfl, m, rfl, hlive⟩
  next =>
    split
    next => exact ⟨rfl, m, rfl, hlive⟩
    next =>
      split
      next => exact ⟨rfl, hpurged⟩
      next =>
        split
        next => exact ⟨rfl, hpurged⟩
        next =>
          split
          next => exact ⟨rfl, hpurged⟩
          next =>
            cases (s.purgeStale now).signer with
            | none => exact ⟨rfl, hpurged⟩
            | some signer => exact ⟨rfl, hpurged⟩

end Agrees

end NrfStore

/-! ### The two registries over a run -/

inductive Call where
  | request (request : Request)
  | list
  | discover (q : DiscoveryQuery)

/-- A call, `delay` after the last one, from a caller with or without a certificate. -/
structure Arrival where
  delay : Nat
  cert : Option String := none
  call : Call

inductive Reply where
  | answer (answer : Answer)
  | found (nfInstances : List NfProfile)

/-- The same answer, or the same instances in whatever order. -/
def Reply.Alike : Reply → Reply → Prop
  | .answer a, .answer b => a = b
  | .found ps, .found qs => ps.Perm qs
  | _, _ => False

namespace World

variable {SigningKey VerifyingKey : Type} (J : Jose SigningKey VerifyingKey) (upper : String → String)

def dispatch (s : NrfStore SigningKey) (now : Nat) (cert : Option String) :
    Call → Reply × NrfStore SigningKey
  | .request (.register id profile) =>
      let r := s.register now id cert profile
      (.answer r.1, r.2)
  | .request (.heartbeat id) =>
      let r := s.heartbeat now id
      (.answer r.1, r.2)
  | .request (.deregister id) =>
      let r := s.deregister id
      (.answer r.1, r.2)
  | .request (.accessToken wall req) =>
      let r := s.accessToken J upper now wall cert req
      (.answer r.1, r.2)
  | .list =>
      let r := s.list now
      (.found r.1, r.2)
  | .discover q =>
      let r := s.discover now q
      (.found r.1, r.2)

/-- The registry as it is. -/
def arrive (w : World SigningKey) (a : Arrival) : Reply × World SigningKey :=
  let now := w.now + a.delay
  let r := dispatch J upper w.store now a.cert a.call
  (r.1, { store := r.2, now })

/-- What the registry is for: a registration is gone the moment it expires. -/
def arriveEager (w : World SigningKey) (a : Arrival) : Reply × World SigningKey :=
  let now := w.now + a.delay
  let r := dispatch J upper (w.store.purgeStale now) now a.cert a.call
  (r.1, { store := r.2, now })

/-- A registration that is refused is refused for the sake of one that is alive. -/
def Fair (w : World SigningKey) (a : Arrival) : Prop :=
  match a.call with
  | .request (.register id _) => ∀ x ∈ w.store.entries.lookup id, ∀ c ∈ x.certFp, a.cert ≠ some c →
      w.store.alive (w.now + a.delay) x = true
  | _ => True

/-- A token request drops at most what has expired. -/
theorem accessToken_store (s : NrfStore SigningKey) (now wall : Nat) (cert : Option String)
    (req : Sbi.AccessTokenReq) :
    (s.accessToken J upper now wall cert req).2 = s ∨
      (s.accessToken J upper now wall cert req).2 = s.purgeStale now := by
  unfold NrfStore.accessToken
  split
  next => exact .inl rfl
  next =>
    split
    next => exact .inl rfl
    next =>
      right
      dsimp only
      split
      next => rfl
      next =>
        split
        next => rfl
        next =>
          split
          next => rfl
          next => split <;> rfl

variable {J upper}

/-- The profile as the registry keeps it. -/
def stored (s : NrfStore SigningKey) (id : String) (profile : NfProfile) : NfProfile :=
  { profile with
    nfInstanceId := id
    heartBeatTimer := some (UInt32.ofNat (max (s.heartbeatTimer / 10 ^ 9) 1)) }

theorem register_of_bound {s : NrfStore SigningKey} {id c : String} {cert : Option String}
    {x : Entry} (now : Nat) (profile : NfProfile) (hx : s.entries.lookup id = some x)
    (hc : x.certFp = some c) (hcert : cert ≠ some c) :
    s.register now id cert profile =
      (NrfStore.unauthorizedClient "registration is bound to a different certificate", s) := by
  have hbound : ((s.entries.lookup id).bind fun existing => existing.certFp) = some c := by
    rw [hx, Option.bind_some, hc]
  simp only [NrfStore.register, hbound, if_pos hcert]
  rfl

theorem register_of_own {s : NrfStore SigningKey} {id : String} {cert : Option String}
    (now : Nat) (profile : NfProfile)
    (h : ∀ x, s.entries.lookup id = some x → ∀ c, x.certFp = some c → cert = some c) :
    s.register now id cert profile =
      (.created (stored s id profile),
        { s with entries := s.entries.insert id ⟨stored s id profile, now, cert⟩ }) := by
  cases hbound : (s.entries.lookup id).bind fun existing => existing.certFp with
  | none =>
    simp only [NrfStore.register, hbound]
    rfl
  | some c =>
    obtain ⟨x, hx, hc⟩ := Option.bind_eq_some_iff.mp hbound
    have hown := h x hx c hc
    simp only [NrfStore.register, hbound, hown, ne_eq, not_true_eq_false, if_false]
    rfl

/-- A registration is answered alike exactly when it is refused fairly, and then leaves registries that
agree. -/
theorem register_alike {s s' : NrfStore SigningKey} {now : Nat} (h : NrfStore.Agrees now s s')
    (id : String) (cert : Option String) (profile : NfProfile) :
    ((s.register now id cert profile).1 = ((s'.purgeStale now).register now id cert profile).1 ↔
        ∀ x ∈ s.entries.lookup id, ∀ c ∈ x.certFp, cert ≠ some c → s.alive now x = true) ∧
      ((∀ x ∈ s.entries.lookup id, ∀ c ∈ x.certFp, cert ≠ some c → s.alive now x = true) →
        NrfStore.Agrees now (s.register now id cert profile).2
          ((s'.purgeStale now).register now id cert profile).2) := by
  have hpurged := h.purgeStale
  have hlookup := h.lookup id
  by_cases hown : ∀ x, s.entries.lookup id = some x → ∀ c, x.certFp = some c → cert = some c
  · -- nobody else's certificate is on the entry, expired or not
    have hown' : ∀ x, (s'.purgeStale now).entries.lookup id = some x →
        ∀ c, x.certFp = some c → cert = some c := by
      intro x hx
      rw [← hlookup, lookup_purgeStale] at hx
      exact hown x hx.1
    have hstored : stored (s'.purgeStale now) id profile = stored s id profile := by
      obtain ⟨m, rfl, -⟩ := h
      rfl
    rw [register_of_own now profile hown, register_of_own now profile hown', hstored]
    refine ⟨iff_of_true rfl fun x hx c hc hne => absurd (hown x hx c hc) hne, fun _ => ?_⟩
    exact hpurged.insert id (stored s id profile) cert
  · push Not at hown
    obtain ⟨x, hx, c, hc, hne⟩ := hown
    have hfair : (∀ x ∈ s.entries.lookup id, ∀ c ∈ x.certFp, cert ≠ some c → s.alive now x = true) ↔
        s.alive now x = true := by
      constructor
      · exact fun h => h x hx c hc hne
      · intro halive y hy _ _ _
        obtain rfl : x = y := Option.mem_unique hx hy
        exact halive
    rw [hfair, register_of_bound now profile hx hc hne]
    cases halive : s.alive now x with
    | true =>
      have hx' : (s'.purgeStale now).entries.lookup id = some x := by
        rw [← hlookup, lookup_purgeStale]
        exact ⟨hx, halive⟩
      rw [register_of_bound now profile hx' hc hne]
      exact ⟨iff_of_true rfl rfl, fun _ => hpurged⟩
    | false =>
      have hgone : (s'.purgeStale now).entries.lookup id = none := by
        rw [← hlookup, Option.eq_none_iff_forall_ne_some]
        intro y hy
        obtain ⟨hy, hyalive⟩ := lookup_purgeStale.mp hy
        obtain rfl : x = y := Option.mem_unique hx hy
        rw [halive] at hyalive
        cases hyalive
      rw [register_of_own now profile fun y hy => by rw [hgone] at hy; cases hy]
      exact ⟨iff_of_false nofun nofun, nofun⟩

/-- One call: the answers are alike exactly when a refusal is fair, and then the registries agree. -/
theorem arrive_alike {w w' : World SigningKey} (a : Arrival) (hnow : w'.now = w.now)
    (h : NrfStore.Agrees w.now w.store w'.store) :
    ((w.arrive J upper a).1.Alike (w'.arriveEager J upper a).1 ↔ w.Fair a) ∧
      (w.Fair a → NrfStore.Agrees (w.arrive J upper a).2.now (w.arrive J upper a).2.store
        (w'.arriveEager J upper a).2.store) := by
  obtain ⟨delay, cert, call⟩ := a
  have hlater := h.later (Nat.le_add_right w.now delay)
  have hpurged := hlater.purgeStale
  rw [arrive, arriveEager, hnow]
  cases call with
  | request r =>
    cases r with
    | register id profile => exact register_alike hlater id cert profile
    | heartbeat id =>
      obtain ⟨hsame, hagrees⟩ := hpurged.heartbeat id
      exact ⟨iff_of_true hsame trivial, fun _ => hagrees⟩
    | deregister id => exact ⟨iff_of_true rfl trivial, fun _ => hpurged.deregister id⟩
    | accessToken wall req =>
      obtain ⟨hsame, hagrees⟩ := hpurged.accessToken J upper wall cert req
      exact ⟨iff_of_true hsame trivial, fun _ => hagrees⟩
  | list =>
    exact ⟨iff_of_true hpurged.profiles trivial, fun _ => hpurged.purgeStale_left.purgeStale⟩
  | discover q =>
    exact ⟨iff_of_true (hpurged.profiles.filter _) trivial,
      fun _ => hpurged.purgeStale_left.purgeStale⟩

end World

/-- **Soft state.** Over every run, whatever certificates the callers have, the registry answers as one
in which registrations expire by themselves exactly when no registration is refused for the sake of
one that has expired. -/
theorem lazy_iff_eager {SigningKey VerifyingKey : Type} (J : Jose SigningKey VerifyingKey)
    (upper : String → String) (w : World SigningKey) (arrivals : List Arrival) :
    List.Forall₂ Reply.Alike (Runs.outputs (World.arrive J upper) w arrivals)
        (Runs.outputs (World.arriveEager J upper) w arrivals) ↔
      Runs.Along (fun w a => (w.arrive J upper a).2) World.Fair w arrivals := by
  refine Runs.outputs_alike_iff
    (R := fun w w' => w'.now = w.now ∧ NrfStore.Agrees w.now w.store w'.store) ?_ ?_ arrivals
    ⟨rfl, NrfStore.Agrees.refl w.now w.store⟩
  · rintro w w' a ⟨hnow, hagrees⟩
    exact (World.arrive_alike a hnow hagrees).1
  · rintro w w' a ⟨hnow, hagrees⟩ hfair
    have htime : (w'.arriveEager J upper a).2.now = (w.arrive J upper a).2.now :=
      congrArg (· + a.delay) hnow
    exact ⟨htime, (World.arrive_alike a hnow hagrees).2 hfair⟩

/-- An SMF that comes back with a new certificate long after it fell silent, before anybody looked. -/
example :
    ¬ Runs.Along (fun w a => (w.arrive Sbi.sampleJose String.toUpper a).2) World.Fair
      ({ store := {} } : World _)
      [{ delay := 0, cert := some "cert-a", call := .request (.register "smf-1" smfProfile) },
        { delay := 30 * 10 ^ 9, cert := some "cert-b"
          call := .request (.register "smf-1" smfProfile) }] := by
  rintro ⟨-, hfair, -⟩
  have halive := hfair _ rfl "cert-a" rfl (by decide)
  revert halive
  decide

end Radian.Nrf
