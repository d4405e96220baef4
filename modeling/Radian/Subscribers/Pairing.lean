import Radian.Subscribers.Redb
import Radian.Tasks.Basic

/-!
# Credentials and sequence numbers under concurrent clients

Clients of one persistent store, one transaction a step.  `nextSqn` and `resyncSqn` read in one
transaction and write in another; in between, the subscriber may be removed or provisioned anew.

- `Task`, `program` — the calls in flight, over the database and the history of its credentials.
- `Lawful` — a resynchronisation writes what the credentials of that moment verify, and between calls
  there is a sequence number exactly where there are credentials.
- `lawful_iff` — this holds along a run exactly when no resynchronisation is overtaken by a removal or
  by credentials under which its token does not carry that number.
-/

namespace Radian.Subscribers.Clients

open Aka (Sqn Rand Auts SubscriberKey)

variable {J : Type}

/-! ### Calls in flight -/

/-- A committed change of credentials. -/
inductive Commit where
  | provisioned (supi : String) (key : SubscriberKey)
  | removed (supi : String)
  deriving DecidableEq

def Commit.supi : Commit → String
  | .provisioned supi _ => supi
  | .removed supi => supi

/-- The credentials it leaves. -/
def Commit.key : Commit → Option SubscriberKey
  | .provisioned _ key => some key
  | .removed _ => none

/-- The database, with the changes of credentials so far, newest first. -/
structure Store where
  db : Db
  log : List Commit

/-- A call, by the transaction it is about to run.  A resynchronisation that has read remembers the
number it found and how many changes came before. -/
inductive Task (J : Type) where
  | provision (supi : String) (key : SubscriberKey) (nonce : Octets 12)
  | removeSubscriber (supi : String)
  | readNext (supi : String)
  | writeNext (supi : String)
  | readResync (supi : String) (rand : Rand) (auts : Auts)
  | writeResync (supi : String) (rand : Rand) (auts : Auts) (sqnMs : Sqn) (seen : Nat)
  | returned (answer : Answer J)

def Task.isReturned : Task J → Bool
  | .returned _ => true
  | _ => false

inductive Request where
  | provision (supi : String) (key : SubscriberKey) (nonce : Octets 12)
  | removeSubscriber (supi : String)
  | nextSqn (supi : String)
  | resyncSqn (supi : String) (rand : Rand) (auts : Auts)
  deriving DecidableEq

def enter : Request → Store → Option (Task J × Store)
  | .provision supi key nonce, s => some (.provision supi key nonce, s)
  | .removeSubscriber supi, s => some (.removeSubscriber supi, s)
  | .nextSqn supi, s => some (.readNext supi, s)
  | .resyncSqn supi rand auts, s => some (.readResync supi rand auts, s)

variable (env : Setting J)

/-- The next transaction of a call. -/
def act : Task J → Store → Task J × Store
  | .provision supi key nonce, s =>
      (.returned (.done (.ok ())),
        { db := Redb.provision env s.db supi key nonce, log := .provisioned supi key :: s.log })
  | .removeSubscriber supi, s =>
      (.returned (.flag (Redb.removeSubscriber s.db supi).1),
        { db := (Redb.removeSubscriber s.db supi).2, log := .removed supi :: s.log })
  | .readNext supi, s =>
      (if (Redb.readKey env s.db supi).isSome then .writeNext supi else .returned (.sqn none), s)
  | .writeNext supi, s =>
      (.returned (.sqn (Redb.takeSqn s.db supi).1), { s with db := (Redb.takeSqn s.db supi).2 })
  | .readResync supi rand auts, s =>
      match Redb.verifyAuts env s.db supi rand auts with
      | some sqnMs => (.writeResync supi rand auts sqnMs s.log.length, s)
      | none => (.returned (.flag false), s)
  | .writeResync supi _ _ sqnMs _, s =>
      (.returned (.flag true), { s with db := Redb.adoptSqn s.db supi sqnMs })
  | .returned answer, s => (.returned answer, s)

/-- Any number of calls of any number of clients. -/
def program : Tasks.Program Store (Task J) Request where
  enter := enter
  act _ := act env

/-- A new store without clients. -/
def start : Tasks.Pool Store (Task J) := { shared := { db := .create, log := [] }, tasks := [] }

/-! ### The law -/

/-- No call is in flight. -/
def Quiet (p : Tasks.Pool Store (Task J)) : Prop := ∀ t ∈ p.tasks, t.isReturned = true

/-- There is a sequence number exactly where there are credentials. -/
def Paired (db : Db) : Prop :=
  ∀ supi, ((db.strs .authState).row supi).isSome = ((db.strs .credentials).row supi).isSome

/-- A resynchronisation writes the number that its token carries under the credentials stored now. -/
def Verified (p : Tasks.Pool Store (Task J)) : Tasks.Move Request → Prop
  | .step i =>
      match p.tasks[i]? with
      | some (.writeResync supi rand auts sqnMs _) =>
          Redb.verifyAuts env p.shared.db supi rand auts = some sqnMs
      | _ => True
  | .start _ => True

def Lawful (p : Tasks.Pool Store (Task J)) (m : Tasks.Move Request) : Prop :=
  Verified env p m ∧
    (Quiet ((program env).step p m) → Paired ((program env).step p m).shared.db)

/-- The last change of a subscriber's credentials. -/
def lastOf (supi : String) (log : List Commit) : Option Commit := log.find? fun c => c.supi = supi

/-- Since a resynchronisation read, the subscriber's credentials have not changed, or have last been
provisioned such that its token still carries the number. -/
def Heeds (p : Tasks.Pool Store (Task J)) : Tasks.Move Request → Prop
  | .step i =>
      match p.tasks[i]? with
      | some (.writeResync supi rand auts sqnMs seen) =>
          ∀ c, lastOf supi (p.shared.log.take (p.shared.log.length - seen)) = some c →
            (c.key.bind fun key => Aka.sqnMsFromAuts env.base.milenage key rand auts) = some sqnMs
      | _ => True
  | .start _ => True

/-! ### Credentials follow the history -/

/-- The credentials the history leaves. -/
def current (supi : String) (log : List Commit) : Option SubscriberKey :=
  (lastOf supi log).bind Commit.key

/-- What stands between the two transactions of a resynchronisation: the number was in the token when
it read. -/
def spot (_ : Nat) : Task J → Store → Prop
  | .writeResync supi rand auts sqnMs seen, s =>
      seen ≤ s.log.length ∧
        ((current supi (s.log.drop (s.log.length - seen))).bind fun key =>
          Aka.sqnMsFromAuts env.base.milenage key rand auts) = some sqnMs
  | _, _ => True

def outline : Tasks.Outline Store (Task J) where
  inv s := ∀ supi, Redb.readKey env s.db supi = current supi s.log
  spot := spot env

variable {env} {supi : String} {log : List Commit}

theorem current_cons (c : Commit) :
    current supi (c :: log) = if c.supi = supi then c.key else current supi log := by
  unfold current lastOf
  rw [List.find?_cons]
  by_cases hc : c.supi = supi
  · simp [hc]
  · simp [hc]

/-- The last change is among the newest, or it is the last before them. -/
theorem current_split (n : Nat) :
    current supi log =
      match lastOf supi (log.take n) with
      | some c => c.key
      | none => current supi (log.drop n) := by
  unfold current lastOf
  conv_lhs => rw [← List.take_append_drop n log, List.find?_append]
  cases (log.take n).find? fun c => c.supi = supi with
  | none => rfl
  | some c => rfl

theorem readKey_provision (haead : env.aead.Correct) (db : Db) (supi supi' : String)
    (key : SubscriberKey) (nonce : Octets 12) :
    Redb.readKey env (Redb.provision env db supi key nonce) supi' =
      if supi = supi' then some key else Redb.readKey env db supi' := by
  have hrow := Keyed.Table.row_insert (db.strs .credentials) supi supi'
    (Redb.encrypt env supi nonce (keyToBytes key))
  have hread : Redb.readKey env (Redb.provision env db supi key nonce) supi' =
      (((db.strs .credentials).insert supi (Redb.encrypt env supi nonce (keyToBytes key))).row
        supi').bind (Redb.openKey env supi') := rfl
  rw [hread, hrow]
  by_cases hsupi : supi = supi'
  · subst hsupi
    simp only [if_true, Option.bind_some, Redb.openKey_encrypt haead]
  · rw [if_neg hsupi, if_neg (Ne.symm hsupi)]
    rfl

theorem readKey_remove (db : Db) (supi supi' : String) :
    Redb.readKey env (Redb.removeSubscriber db supi).2 supi' =
      if supi = supi' then none else Redb.readKey env db supi' := by
  have hrow := Keyed.Table.row_erase (db.strs .credentials) supi supi'
  have hread : Redb.readKey env (Redb.removeSubscriber db supi).2 supi' =
      (((db.strs .credentials).erase supi).row supi').bind (Redb.openKey env supi') := rfl
  rw [hread, hrow]
  by_cases hsupi : supi = supi'
  · subst hsupi
    simp only [if_true, Option.bind_none]
  · rw [if_neg hsupi, if_neg (Ne.symm hsupi)]
    rfl

/-- Changes of credentials do not change what came before them. -/
theorem undisturbed {i : Nat} {s s' : Store} (h : s'.log = s.log ∨ ∃ c, s'.log = c :: s.log) :
    (outline env).Undisturbed i s s' := by
  intro j t _ hspot
  cases t with
  | writeResync supi rand auts sqnMs seen =>
    rcases h with hsame | ⟨c, hcons⟩
    · simp only [outline, spot, hsame] at hspot ⊢
      exact hspot
    · obtain ⟨hseen, hverified⟩ := hspot
      rw [← List.drop_succ_cons (a := c), ← Nat.sub_add_comm hseen] at hverified
      simp only [outline, spot, hcons, List.length_cons]
      exact ⟨Nat.le_succ_of_le hseen, hverified⟩
  | _ => trivial

theorem readKey_takeSqn (db : Db) (supi supi' : String) :
    Redb.readKey env (Redb.takeSqn db supi).2 supi' = Redb.readKey env db supi' := by
  unfold Redb.takeSqn
  split <;> rfl

theorem enter_same (env : Setting J) {e : Request} {s s' : Store} {t : Task J} (h : enter e s = some (t, s')) :
    s' = s ∧ ∀ i, spot env i t s := by
  cases e with
  | _ =>
    obtain ⟨rfl, rfl⟩ := Prod.mk.inj (Option.some.inj h)
    exact ⟨rfl, fun _ => trivial⟩

theorem sound (haead : env.aead.Correct) : (outline env).Sound (program env) where
  enter i e s t s' h henter := by
    obtain ⟨rfl, hspot⟩ := enter_same env henter
    exact ⟨h, hspot i, Tasks.Outline.Undisturbed.refl⟩
  act i t s h hspot := by
    cases t with
    | provision supi key nonce =>
      refine ⟨?_, trivial, undisturbed (.inr ⟨_, rfl⟩)⟩
      intro supi'
      simp only [program, act]
      rw [readKey_provision haead, current_cons, h supi']
      rfl
    | removeSubscriber supi =>
      refine ⟨?_, trivial, undisturbed (.inr ⟨_, rfl⟩)⟩
      intro supi'
      simp only [program, act]
      rw [readKey_remove, current_cons, h supi']
      rfl
    | readNext supi =>
      refine ⟨h, ?_, undisturbed (.inl rfl)⟩
      simp only [program, act]
      split <;> trivial
    | writeNext supi =>
      refine ⟨?_, trivial, undisturbed (.inl rfl)⟩
      intro supi'
      exact (readKey_takeSqn s.db supi supi').trans (h supi')
    | readResync supi rand auts =>
      simp only [program, act]
      cases hverify : Redb.verifyAuts env s.db supi rand auts with
      | none => exact ⟨h, trivial, Tasks.Outline.Undisturbed.refl⟩
      | some sqnMs =>
        refine ⟨h, ⟨Nat.le_refl _, ?_⟩, Tasks.Outline.Undisturbed.refl⟩
        rw [Nat.sub_self, List.drop_zero, ← h supi]
        exact hverify
    | writeResync supi rand auts sqnMs seen => exact ⟨h, trivial, undisturbed (.inl rfl)⟩
    | returned answer => exact ⟨h, trivial, Tasks.Outline.Undisturbed.refl⟩

/-- With the history at hand, a write is verified exactly when nothing has overtaken it. -/
theorem verified_iff {p : Tasks.Pool Store (Task J)} (h : (outline env).Holds p)
    (m : Tasks.Move Request) : Verified env p m ↔ Heeds env p m := by
  cases m with
  | start e => exact Iff.rfl
  | step i =>
    simp only [Verified, Heeds]
    split
    · rename_i supi rand auts sqnMs seen hi
      obtain ⟨-, hread⟩ := h.spot i _ hi
      have hkey := h.inv supi
      rw [current_split (p.shared.log.length - seen)] at hkey
      rw [Redb.verifyAuts, hkey]
      cases hlast : lastOf supi (p.shared.log.take (p.shared.log.length - seen)) with
      | none =>
        constructor
        · exact fun _ c hc => absurd hc (by simp)
        · exact fun _ => hread
      | some c =>
        constructor
        · intro hverified c' hc'
          rw [← Option.some_inj.mp hc']
          exact hverified
        · exact fun hheeds => hheeds c rfl
    · exact Iff.rfl

/-! ### Rows -/

theorem paired_provision {db : Db} (h : Paired db) (supi : String) (key : SubscriberKey)
    (nonce : Octets 12) : Paired (Redb.provision env db supi key nonce) := by
  intro supi'
  have hauth := Keyed.Table.row_insert (db.strs .authState) supi supi' (Octets.zero 6).val
  have hcred := Keyed.Table.row_insert (db.strs .credentials) supi supi'
    (Redb.encrypt env supi nonce (keyToBytes key))
  refine (congrArg Option.isSome hauth).trans (Eq.trans ?_ (congrArg Option.isSome hcred).symm)
  split
  · rfl
  · exact h supi'

theorem paired_remove {db : Db} (h : Paired db) (supi : String) :
    Paired (Redb.removeSubscriber db supi).2 := by
  intro supi'
  have hauth := Keyed.Table.row_erase (db.strs .authState) supi supi'
  have hcred := Keyed.Table.row_erase (db.strs .credentials) supi supi'
  refine (congrArg Option.isSome hauth).trans (Eq.trans ?_ (congrArg Option.isSome hcred).symm)
  split
  · rfl
  · exact h supi'

/-- A number is written where there are credentials. -/
theorem paired_adopt {db : Db} (h : Paired db) {supi : String} (sqn : Sqn)
    (hcred : ((db.strs .credentials).row supi).isSome = true) : Paired (Redb.adoptSqn db supi sqn) := by
  intro supi'
  have hauth := Keyed.Table.row_insert (db.strs .authState) supi supi' sqn.val
  refine (congrArg Option.isSome hauth).trans ?_
  split
  · rename_i hsupi
    rw [hsupi]
    exact hcred.symm
  · exact h supi'

theorem paired_take {db : Db} (h : Paired db) (supi : String) : Paired (Redb.takeSqn db supi).2 := by
  unfold Redb.takeSqn
  split
  · rename_i cur hcur
    obtain ⟨row, hrow, -⟩ := Option.bind_eq_some_iff.mp hcur
    refine paired_adopt h (incrementSqn cur) ?_
    rw [← h supi, hrow]
    rfl
  · exact h

theorem paired_step {p : Tasks.Pool Store (Task J)} (h : Paired p.shared.db) {m : Tasks.Move Request}
    (hverified : Verified env p m) : Paired ((program env).step p m).shared.db := by
  obtain hsame | ⟨e, t, s, -, henter, hstep⟩ | ⟨i, t, rfl, hi, hstep⟩ :=
    Tasks.Program.step_cases (P := program env) p m
  · rwa [hsame]
  · rw [hstep, (enter_same env henter).1]
    exact h
  · rw [hstep]
    cases t with
    | provision supi key nonce => exact paired_provision h supi key nonce
    | removeSubscriber supi => exact paired_remove h supi
    | readNext supi => exact h
    | writeNext supi => exact paired_take h supi
    | readResync supi rand auts =>
      simp only [program, act]
      split <;> exact h
    | writeResync supi rand auts sqnMs seen =>
      simp only [Verified, hi] at hverified
      refine paired_adopt h sqnMs ?_
      obtain ⟨key, hkey, -⟩ := Option.bind_eq_some_iff.mp hverified
      obtain ⟨row, hrow, -⟩ := Option.bind_eq_some_iff.mp hkey
      rw [hrow]
      rfl
    | returned answer => exact h

/-! ### The law over runs -/

theorem holds_start : (outline env).Holds (start (J := J)) := Tasks.Outline.Holds.none fun _ => rfl

/-- **The law.** It holds along a run exactly when no resynchronisation is overtaken. -/
theorem lawful_iff (env : Setting J) (haead : env.aead.Correct) (ms : List (Tasks.Move Request)) :
    Runs.Along (program env).step (Lawful env) start ms ↔
      Runs.Along (program env).step (Heeds env) start ms := by
  have hagree : Runs.Along (program env).step (Verified env) start ms ↔
      Runs.Along (program env).step (Heeds env) start ms :=
    Runs.along_congr (fun _ m => (sound haead).step m) (fun _ m hp => verified_iff hp m) holds_start
  constructor
  · intro hlawful
    exact hagree.mp (Runs.along_imp (I := fun _ => True) (fun _ _ _ _ => trivial)
      (fun _ _ _ hl => hl.1) trivial hlawful)
  · intro hheeds
    refine Runs.along_imp (I := fun p => Paired p.shared.db) (fun _ _ hv hp => paired_step hp hv) ?_
      (fun _ => rfl) (hagree.mpr hheeds)
    exact fun _ _ hp hv => ⟨hv, fun _ => paired_step hp hv⟩

/-- A subscriber is provisioned and resynchronised. -/
def resynchronised : List (Tasks.Move Request) :=
  [.start (.provision "imsi-1" sampleKey (Octets.zero 12)), .step 0,
    .start (.resyncSqn "imsi-1" (Octets.zero 16) sampleAuts), .step 1, .step 1]

theorem lawful_resynchronised :
    Runs.Along (program booleans).step (Lawful booleans) start resynchronised :=
  (lawful_iff booleans correct_booleans resynchronised).mpr
    ⟨trivial, trivial, trivial, trivial, nofun, trivial⟩

/-- A removal comes between the two transactions of a resynchronisation. -/
def overtaken : List (Tasks.Move Request) :=
  [.start (.provision "imsi-1" sampleKey (Octets.zero 12)), .step 0,
    .start (.resyncSqn "imsi-1" (Octets.zero 16) sampleAuts), .step 1,
    .start (.removeSubscriber "imsi-1"), .step 2, .step 1]

/-- It leaves a sequence number without credentials. -/
theorem orphan_overtaken :
    let p := Runs.run (program booleans).step start overtaken
    Quiet p ∧ ((p.shared.db.strs .authState).row "imsi-1").isSome = true ∧
      (p.shared.db.strs .credentials).row "imsi-1" = none ∧
      ¬ Runs.Along (program booleans).step (Lawful booleans) start overtaken := by
  have hreturned : (Runs.run (program booleans).step start overtaken).tasks.all Task.isReturned = true :=
    rfl
  refine ⟨List.all_eq_true.mp hreturned, rfl, rfl, ?_⟩
  intro halong
  have hlast : (none : Option Sqn) = some (Octets.zero 6) := halong.2.2.2.2.2.2.1.1
  cases hlast

end Radian.Subscribers.Clients
