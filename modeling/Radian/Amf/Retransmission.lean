import Radian.Amf.Guarded
import Radian.Amf.Timers

/-!
# Commands that are sent until they are answered

The AMF's four guarded and protected commands, and a UE that answers a command exactly when its own
NAS security context accepts it.

- `GuardedCommand`, `UeContext.send` — the commands, and the first transmission.
- `Loss`, `exchange` — the transmissions, what is lost of each, and what comes of the procedure.
- `Synchronised` — the UE's COUNT is not far behind.
- `Heals` — the losses after which the procedure still completes.
- `completes_iff_heals` — it completes exactly then, and otherwise the UE is deregistered.
-/

namespace Radian.Amf

open Nas (Nas5gmmMessage NasCodec NasSecurityContext RegistrationAccept estimate)
open Nas.NasSecurityContext (SameKeys Verifies)
open Security (Algorithms Bytes)

/-! ### The commands -/

inductive GuardedCommand where
  | securityModeCommand (nea nia : UInt8) (replayedUeSecCap : UInt8 × UInt8)
  | registrationAccept (accept : RegistrationAccept)
  | configurationUpdateCommand (cuc : Nas5gmmMessage) (areaRestriction : Option AreaRestriction)
  | deregistrationRequest
  deriving DecidableEq

namespace GuardedCommand

def message : GuardedCommand → Nas5gmmMessage
  | .securityModeCommand nea nia cap => .securityModeCommand nea nia NGKSI cap
  | .registrationAccept accept => .registrationAccept accept
  | .configurationUpdateCommand cuc _ => cuc
  | .deregistrationRequest => .deregistrationRequestToUe 0x01

def sht : GuardedCommand → UInt8
  | .securityModeCommand .. => Nas.Sht.INTEGRITY_NEW_CONTEXT
  | _ => Nas.Sht.INTEGRITY_CIPHERED

/-- The bytes in `bytes` are out for the first time. -/
def guard (bytes : Bytes) (c : UeContext) : GuardedCommand → UeContext
  | .securityModeCommand .. =>
      { c with pendingRetx := some { kind := .SecurityModeCommand, nasBytes := bytes, attempts := 1 } }
  | .registrationAccept _ =>
      { c with pendingRetx := some { kind := .RegistrationAccept, nasBytes := bytes, attempts := 1 } }
  | .configurationUpdateCommand cuc areaRestriction =>
      { c with pendingConfigUpdate := some { cuc, areaRestriction, attempts := 1 } }
  | .deregistrationRequest => { c with deregAttempts := some 1 }

variable (F : Functions)

/-- The expiry of the command's timer. -/
def expire (c : UeContext) : GuardedCommand → Expiry
  | .securityModeCommand .. => c.expireNasRetx .SecurityModeCommand
  | .registrationAccept _ => c.expireNasRetx .RegistrationAccept
  | .configurationUpdateCommand .. => c.expireT3555 F
  | .deregistrationRequest => c.expireT3522 F

/-- Whether the same bytes go out again. -/
def verbatim : GuardedCommand → Bool
  | .securityModeCommand .. | .registrationAccept _ => true
  | _ => false

end GuardedCommand

/-! ### Transmissions -/

/-- What is lost of a transmission. -/
inductive Loss where
  | nothing
  | command
  | answer
  deriving DecidableEq, Repr

inductive Outcome where
  | completed
  | deregistered
  | underWay
  deriving DecidableEq, Repr

variable (F : Functions)

/-- A transmission to a UE: whether its answer reaches the AMF, and the UE's context then. -/
def transmit (loss : Loss) (bytes : Bytes) (ue : NasSecurityContext) : Bool × NasSecurityContext :=
  if loss = .command then (false, ue)
  else
    let (m, ue) := ue.unprotect F.algorithms F.nas.toCodec bytes 1
    (m.isSome && loss == .nothing, ue)

/-- One transmission for each loss; after each that is not answered the timer expires. -/
def exchange (g : GuardedCommand) : List Loss → Bytes → UeContext → NasSecurityContext → Outcome
  | [], _, _, _ => .underWay
  | loss :: losses, bytes, c, ue =>
      match transmit F loss bytes ue with
      | (true, _) => .completed
      | (false, ue) =>
          match g.expire F c with
          | .stale => .underWay
          | .resend bytes _ c => exchange g losses bytes c ue
          | .exhausted => .deregistered

/-- The procedure, from the first transmission of the command under `sec`. -/
def procedure (g : GuardedCommand) (losses : List Loss) (c : UeContext) (sec ue : NasSecurityContext) :
    Outcome :=
  let (bytes, sec) := sec.protectDl F.algorithms F.nas g.sht g.message
  exchange F g losses bytes (g.guard bytes { c with sec := some sec }) ue

/-! ### Step -/

/-- The UE holds the same keys; the next `n` COUNTs of the AMF are neither behind the UE's nor 128
ahead of it, and are COUNTs of 24 bits. -/
structure Synchronised (n : Nat) (sec ue : NasSecurityContext) : Prop where
  keys : SameKeys sec ue
  behind : (ue.count 1).toNat ≤ (sec.count 1).toNat
  window : (sec.count 1).toNat + n ≤ (ue.count 1).toNat + 128
  bound : (sec.count 1).toNat + n ≤ 2 ^ 24

/-- The losses after which the procedure completes.  A command that is protected anew needs one
transmission of which nothing is lost; one that goes out as it is has to be answered when it first
arrives. -/
def GuardedCommand.Heals (g : GuardedCommand) (losses : List Loss) : Prop :=
  if g.verbatim then losses.find? (· != .command) = some .nothing else .nothing ∈ losses

instance decidableHeals (g : GuardedCommand) (losses : List Loss) : Decidable (g.Heals losses) :=
  inferInstanceAs (Decidable
    (if g.verbatim then losses.find? (· != .command) = some .nothing else .nothing ∈ losses))

section

variable {F} {A : Algorithms} {K : NasCodec} {sec ue : NasSecurityContext} {n : Nat}

namespace Synchronised

theorem setCount_toNat (h : Synchronised (n + 1) sec ue) :
    (sec.count 1 + 1).toNat = (sec.count 1).toNat + 1 := by
  have hbound := h.bound
  bv_omega

/-- The command is accepted. -/
theorem unprotect (h : Synchronised (n + 1) sec ue) (hinv : A.Involutive) (sht : UInt8)
    {m : Nas5gmmMessage} (hcodec : K.decode (K.encode m) = some m) :
    ue.unprotect A K.toCodec (sec.protectDl A K sht m).1 1 =
      (some m, ue.setCount 1 (sec.count 1 + 1)) := by
  have hbehind := h.behind
  have hwindow := h.window
  have hbound := h.bound
  have hestimate : estimate (ue.count 1) (sec.envelope A (sec.count 1) (K.encode m) sht 1).sn =
      sec.count 1 := Nas.estimate_of_window (by omega) (by omega) (by omega)
  have hverifies : Verifies A ue (sec.envelope A (sec.count 1) (K.encode m) sht 1) 1 := by
    constructor
    · rw [hestimate, BitVec.le_def]
      exact hbehind
    · rw [hestimate, h.keys.mac_eq]
      rfl
  change ue.unprotect A K.toCodec
    (sec.envelope A (sec.count 1) (K.encode m) sht 1).toBytes 1 = _
  rw [NasSecurityContext.unprotect_of_verifies (Nas.Envelope.ofBytes_toBytes _) hverifies, hestimate]
  have hplain : ue.cipher A (sec.count 1) 1 sht
      (sec.envelope A (sec.count 1) (K.encode m) sht 1).payload = K.encode m := by
    rw [h.keys.cipher_eq]
    exact NasSecurityContext.cipher_cipher hinv sec _ 1 sht _
  exact congrArg (·, _) ((congrArg K.decode hplain).trans hcodec)

/-- Once it has been, it is not accepted again. -/
theorem unprotect_again (h : Synchronised (n + 1) sec ue) (sht : UInt8) (m : Nas5gmmMessage) :
    (ue.setCount 1 (sec.count 1 + 1)).unprotect A K.toCodec (sec.protectDl A K sht m).1 1 =
      (none, ue.setCount 1 (sec.count 1 + 1)) := by
  have hbound := h.bound
  apply NasSecurityContext.unprotect_of_not_verifies
  intro env henv hverifies
  change Nas.Envelope.ofBytes (sec.envelope A (sec.count 1) (K.encode m) sht 1).toBytes = _ at henv
  rw [Nas.Envelope.ofBytes_toBytes, Option.some_inj] at henv
  subst henv
  have hnewer := hverifies.newer
  rw [NasSecurityContext.count_setCount] at hnewer
  exact absurd hnewer (BitVec.not_le.mpr (Nas.estimate_of_previous (by omega)))

/-- After a transmission that did not arrive. -/
theorem lost (h : Synchronised (n + 1) sec ue) : Synchronised n (sec.setCount 1 (sec.count 1 + 1)) ue := by
  have hnext := h.setCount_toNat
  have hbehind := h.behind
  have hwindow := h.window
  have hbound := h.bound
  constructor
  · exact (SameKeys.setCount sec 1 _).symm.trans h.keys
  all_goals rw [NasSecurityContext.count_setCount]
  all_goals omega

/-- After one that did. -/
theorem arrived (h : Synchronised (n + 1) sec ue) :
    Synchronised n (sec.setCount 1 (sec.count 1 + 1)) (ue.setCount 1 (sec.count 1 + 1)) := by
  have hnext := h.setCount_toNat
  have hbehind := h.behind
  have hwindow := h.window
  have hbound := h.bound
  constructor
  · exact (SameKeys.setCount sec 1 _).symm.trans (h.keys.trans (.setCount ue 1 _))
  all_goals simp only [NasSecurityContext.count_setCount]
  all_goals omega

end Synchronised

/-! ### What comes of the procedure -/

/-- Of a transmission that is not lost on the way the UE takes the command. -/
theorem transmit_eq {loss : Loss} (h : Synchronised (n + 1) sec ue) (hinv : F.algorithms.Involutive)
    (sht : UInt8) {m : Nas5gmmMessage} (hcodec : F.nas.decode (F.nas.encode m) = some m) :
    transmit F loss (sec.protectDl F.algorithms F.nas sht m).1 ue =
      if loss = .command then (false, ue)
      else (loss == .nothing, ue.setCount 1 (sec.count 1 + 1)) := by
  unfold transmit
  rw [h.unprotect hinv sht hcodec]
  rfl

/-- Once the UE has taken the command, copies of it are in vain. -/
theorem transmit_again {loss : Loss} (h : Synchronised (n + 1) sec ue) (sht : UInt8) (m : Nas5gmmMessage) :
    transmit F loss (sec.protectDl F.algorithms F.nas sht m).1 (ue.setCount 1 (sec.count 1 + 1)) =
      (false, ue.setCount 1 (sec.count 1 + 1)) := by
  unfold transmit
  rw [h.unprotect_again]
  split <;> rfl

/-- The command is out for the `attempts`-th time, with `bytes`. -/
def GuardedCommand.Outstanding (bytes : Bytes) (attempts : Nat) (c : UeContext) :
    GuardedCommand → Prop
  | .securityModeCommand .. =>
      c.pendingRetx = some { kind := .SecurityModeCommand, nasBytes := bytes, attempts }
  | .registrationAccept _ =>
      c.pendingRetx = some { kind := .RegistrationAccept, nasBytes := bytes, attempts }
  | .configurationUpdateCommand cuc areaRestriction =>
      c.pendingConfigUpdate = some { cuc, areaRestriction, attempts }
  | .deregistrationRequest => c.deregAttempts = some attempts

theorem GuardedCommand.outstanding_guard (g : GuardedCommand) (bytes : Bytes) (c : UeContext) :
    g.Outstanding bytes 1 (g.guard bytes c) := by
  cases g <;> rfl

/-- The same bytes go out again, up to five times. -/
theorem expire_verbatim {g : GuardedCommand} {bytes : Bytes} {attempts : Nat} {c : UeContext}
    (hg : g.verbatim = true) (h : g.Outstanding bytes attempts c) :
    if attempts < 5 then
      ∃ c', g.expire F c = .resend bytes none c' ∧ g.Outstanding bytes (attempts + 1) c'
    else g.expire F c = .exhausted := by
  have hexpire : ∀ kind, c.pendingRetx = some { kind, nasBytes := bytes, attempts } →
      if attempts < 5 then
        ∃ c', c.expireNasRetx kind = .resend bytes none c' ∧
          c'.pendingRetx = some { kind, nasBytes := bytes, attempts := attempts + 1 }
      else c.expireNasRetx kind = .exhausted := by
    intro kind hpending
    unfold UeContext.expireNasRetx
    rw [hpending]
    split
    · rename_i hfew
      have hmore : ¬ attempts ≥ NAS_RETX_MAX_SENDS := by simpa [NAS_RETX_MAX_SENDS] using hfew
      simp only [ne_eq, not_true_eq_false, if_false, if_neg hmore]
      exact ⟨_, rfl, rfl⟩
    · rename_i hmany
      have hmore : attempts ≥ NAS_RETX_MAX_SENDS := by simpa [NAS_RETX_MAX_SENDS] using hmany
      simp [hmore]
  cases g with
  | securityModeCommand => exact hexpire _ h
  | registrationAccept => exact hexpire _ h
  | configurationUpdateCommand => cases hg
  | deregistrationRequest => cases hg

/-- The message goes out again under the next COUNT, up to five times. -/
theorem expire_anew {g : GuardedCommand} {bytes : Bytes} {attempts : Nat} {c : UeContext}
    (hg : g.verbatim = false) (h : g.Outstanding bytes attempts c) (hsec : c.sec = some sec) :
    if attempts < 5 then
      ∃ area c', g.expire F c =
          .resend (sec.protectDl F.algorithms F.nas g.sht g.message).1 area c' ∧
        c'.sec = some (sec.protectDl F.algorithms F.nas g.sht g.message).2 ∧
        ∀ bytes, g.Outstanding bytes (attempts + 1) c'
    else g.expire F c = .exhausted := by
  cases g with
  | securityModeCommand => cases hg
  | registrationAccept => cases hg
  | configurationUpdateCommand cuc areaRestriction =>
    change c.pendingConfigUpdate = some { cuc, areaRestriction, attempts } at h
    simp only [GuardedCommand.expire, UeContext.expireT3555, h, hsec, T3555_MAX_SENDS]
    split
    · exact ⟨_, _, rfl, rfl, fun _ => rfl⟩
    · rfl
  | deregistrationRequest =>
    change c.deregAttempts = some attempts at h
    simp only [GuardedCommand.expire, UeContext.expireT3522, h, hsec, T3522_MAX_SENDS]
    split
    · exact ⟨_, _, rfl, rfl, fun _ => rfl⟩
    · rfl

variable {g : GuardedCommand} {losses : List Loss} {attempts : Nat} {c : UeContext}

/-- The UE has taken the command: what it has answered is lost for good. -/
theorem exchange_in_vain (hg : g.verbatim = true) (h : Synchronised (n + 1) sec ue)
    (hleft : attempts + losses.length = 6) (hmore : losses ≠ [])
    (hout : g.Outstanding (sec.protectDl F.algorithms F.nas g.sht g.message).1 attempts c) :
    exchange F g losses (sec.protectDl F.algorithms F.nas g.sht g.message).1 c
      (ue.setCount 1 (sec.count 1 + 1)) = .deregistered := by
  induction losses generalizing attempts c with
  | nil => exact absurd rfl hmore
  | cons loss losses ih =>
    have hexpire := expire_verbatim (F := F) hg hout
    rw [List.length_cons] at hleft
    simp only [exchange, transmit_again h]
    split at hexpire
    · obtain ⟨c', hresend, hout'⟩ := hexpire
      rw [hresend]
      exact ih (by omega) (List.ne_nil_of_length_pos (by omega)) hout'
    · rw [hexpire]

/-- The same bytes, sent to a UE that has not taken them. -/
theorem exchange_verbatim (hg : g.verbatim = true) (hinv : F.algorithms.Involutive)
    (hcodec : F.nas.decode (F.nas.encode g.message) = some g.message)
    (h : Synchronised (n + 1) sec ue) (hleft : attempts + losses.length = 6) (hmore : losses ≠ [])
    (hout : g.Outstanding (sec.protectDl F.algorithms F.nas g.sht g.message).1 attempts c) :
    exchange F g losses (sec.protectDl F.algorithms F.nas g.sht g.message).1 c ue =
      if losses.find? (· != .command) = some .nothing then .completed else .deregistered := by
  induction losses generalizing attempts c with
  | nil => exact absurd rfl hmore
  | cons loss losses ih =>
    have hexpire := expire_verbatim (F := F) hg hout
    rw [List.length_cons] at hleft
    simp only [exchange, transmit_eq h hinv g.sht hcodec]
    cases loss with
    | nothing => rfl
    | command =>
      simp only [if_true]
      split at hexpire
      · obtain ⟨c', hresend, hout'⟩ := hexpire
        rw [hresend]
        exact ih (by omega) (List.ne_nil_of_length_pos (by omega)) hout'
      · rename_i hlast
        obtain rfl : losses = [] := List.eq_nil_of_length_eq_zero (by omega)
        rw [hexpire]
        rfl
    | answer =>
      have hvain : (Loss.answer :: losses).find? (· != .command) ≠ some .nothing := by simp
      rw [if_neg hvain, if_neg (by simp)]
      split at hexpire
      · obtain ⟨c', hresend, hout'⟩ := hexpire
        simp only [hresend]
        exact exchange_in_vain hg h (by omega) (List.ne_nil_of_length_pos (by omega)) hout'
      · simp only [hexpire]
        rfl

/-- Each transmission under its own COUNT. -/
theorem exchange_anew (hg : g.verbatim = false) (hinv : F.algorithms.Involutive)
    (hcodec : F.nas.decode (F.nas.encode g.message) = some g.message) (h : Synchronised losses.length sec ue)
    (hleft : attempts + losses.length = 6) (hmore : losses ≠ [])
    (hout : ∀ bytes, g.Outstanding bytes attempts c)
    (hsec : c.sec = some (sec.protectDl F.algorithms F.nas g.sht g.message).2) :
    exchange F g losses (sec.protectDl F.algorithms F.nas g.sht g.message).1 c ue =
      if .nothing ∈ losses then .completed else .deregistered := by
  induction losses generalizing attempts c sec ue with
  | nil => exact absurd rfl hmore
  | cons loss losses ih =>
    have hexpire := expire_anew (F := F) hg (hout []) hsec
    have hrest : ∀ ue', Synchronised losses.length (sec.protectDl F.algorithms F.nas g.sht g.message).2 ue' →
        (match g.expire F c with
          | .stale => Outcome.underWay
          | .resend bytes _ c => exchange F g losses bytes c ue'
          | .exhausted => .deregistered) =
            if .nothing ∈ losses then .completed else .deregistered := by
      intro ue' hstep
      rw [List.length_cons] at hleft
      split at hexpire
      · obtain ⟨area, c', hresend, hsec', hout'⟩ := hexpire
        rw [hresend]
        exact ih hstep (by omega) (List.ne_nil_of_length_pos (by omega)) hout' hsec'
      · rename_i hlast
        obtain rfl : losses = [] := List.eq_nil_of_length_eq_zero (by omega)
        rw [hexpire]
        rfl
    simp only [exchange, transmit_eq h hinv g.sht hcodec]
    cases loss with
    | nothing => simp
    | command =>
      simp only [if_true]
      rw [hrest ue h.lost]
      simp
    | answer =>
      rw [if_neg (by simp)]
      exact (hrest _ h.arrived).trans (by simp)

/-- **Retransmission.** A UE in step with the AMF completes the procedure exactly when the losses heal:
a command that is protected anew gets through once a transmission and its answer do, one that goes out
as it is only if it is answered when it first arrives.  Otherwise the UE is deregistered. -/
theorem completes_iff_heals (hinv : F.algorithms.Involutive) (g : GuardedCommand)
    (hcodec : F.nas.decode (F.nas.encode g.message) = some g.message) (c : UeContext)
    (h : Synchronised NAS_RETX_MAX_SENDS sec ue) (losses : List Loss)
    (hsends : losses.length = NAS_RETX_MAX_SENDS) :
    (procedure F g losses c sec ue = .completed ↔ g.Heals losses) ∧
      (¬ g.Heals losses → procedure F g losses c sec ue = .deregistered) := by
  have hmore : losses ≠ [] := by
    rintro rfl
    cases hsends
  have hleft : 1 + losses.length = 6 := by rw [hsends]; rfl
  have hcomes : procedure F g losses c sec ue =
      if g.Heals losses then .completed else .deregistered := by
    unfold procedure
    by_cases hg : g.verbatim = true
    · simp only [GuardedCommand.Heals, if_pos hg]
      exact exchange_verbatim hg hinv hcodec h hleft hmore (g.outstanding_guard _ _)
    · simp only [GuardedCommand.Heals, if_neg hg]
      rw [Bool.not_eq_true] at hg
      refine exchange_anew hg hinv hcodec (hsends ▸ h) hleft hmore (fun bytes => ?_) ?_
      · cases g <;> first | rfl | cases hg
      · cases g <;> rfl
  rw [hcomes]
  constructor
  · split <;> simp_all
  · exact fun hlost => if_neg hlost

end

/-! ### A Security Mode Complete that is lost -/

def sampleCommand : GuardedCommand := .securityModeCommand 0 2 (0x80, 0x20)

/-- The functions of a registration, with what its UE reads. -/
def commandFunctions : Functions :=
  { sampleFunctions with
    nas :=
      { sampleNas with
        decode := fun raw =>
          if raw = sampleNas.encode sampleCommand.message then some sampleCommand.message
          else sampleNas.decode raw } }

/-- The security context of its K_AMF. -/
def sampleSec : NasSecurityContext :=
  let keys := sampleAka.nasKeys sampleKamf 0 2
  .new keys.1 keys.2 2 0

def commandedUe : UeContext := .new 1 .SecurityMode (some "imsi-1") 0

theorem synchronised_sample : Synchronised NAS_RETX_MAX_SENDS sampleSec sampleSec :=
  ⟨.refl sampleSec, le_rfl, by decide, by decide⟩

theorem completes_iff_heals_sample :
    (procedure commandFunctions sampleCommand [.command, .nothing, .answer, .answer, .answer]
        commandedUe sampleSec sampleSec = .completed ↔
      sampleCommand.Heals [.command, .nothing, .answer, .answer, .answer]) ∧
    (¬ sampleCommand.Heals [.command, .nothing, .answer, .answer, .answer] →
      procedure commandFunctions sampleCommand [.command, .nothing, .answer, .answer, .answer]
        commandedUe sampleSec sampleSec = .deregistered) :=
  completes_iff_heals (Security.Algorithms.involutive_ofStream _ _) sampleCommand rfl commandedUe
    synchronised_sample _ rfl

/-- The UE takes the first Security Mode Command, its answer is lost, and it takes no other. -/
theorem not_healed_by_retransmission :
    ¬ ∀ (F : Functions) (g : GuardedCommand) (c : UeContext) (sec ue : NasSecurityContext)
      (losses : List Loss), F.algorithms.Involutive →
      F.nas.decode (F.nas.encode g.message) = some g.message → Synchronised NAS_RETX_MAX_SENDS sec ue →
      losses.length = NAS_RETX_MAX_SENDS → .nothing ∈ losses →
        procedure F g losses c sec ue = .completed := by
  intro h
  have hcompleted := h commandFunctions sampleCommand commandedUe sampleSec sampleSec
    [.answer, .nothing, .nothing, .nothing, .nothing] (Security.Algorithms.involutive_ofStream _ _)
    rfl synchronised_sample rfl (by decide)
  exact absurd hcompleted (by decide +kernel)

end Radian.Amf
