import Radian.Runs.Basic
import Radian.Subscribers.Redb

/-!
# The two subscriber stores agree

The persistent store keeps in rows what the store in memory keeps in maps.

- `Mirrors` — the rows of a database decode to the maps of a store in memory.
- `simulates` — every operation keeps this and gives the same answer.
- `agreement` — over every history from empty stores the answers are the same, and a withdrawn
  subscriber leaves nothing in either.
-/

namespace Radian.Subscribers

open Keyed (Map Table)
open Keyed.Table (Encodes)
open Aka (Sqn SubscriberKey)

variable {J : Type}

/-- The same answer, lists compared as sets. -/
def Answer.Alike : Answer J → Answer J → Prop
  | .listed docs, .listed docs' => ∀ x, x ∈ docs ↔ x ∈ docs'
  | .sessions docs, .sessions docs' => ∀ x, x ∈ docs ↔ x ∈ docs'
  | a, b => a = b

/-- The rows of the database decode to the maps. -/
structure Mirrors (env : Setting J) (g : InMemory J) (db : Db) : Prop where
  credentials : Encodes (Redb.openKey env) (db.strs .credentials) fun supi => g.credentials.lookup supi
  sqn : Encodes (fun _ => Octets.ofBytes? 6) (db.strs .authState) fun supi => g.sqn.lookup supi
  docs : ∀ ds, Encodes (fun _ => env.codec.fromSlice) (db.pairs (docTable ds))
    fun k => g.docs.lookup (ds, k)
  amfReg : Encodes (fun _ => env.codec.fromSlice) (db.strs .amf3gppReg) fun supi => g.amfReg.lookup supi
  smfReg : Encodes (fun _ => env.codec.fromSlice) db.smfReg fun k => g.smfReg.lookup k
  influence : Encodes (fun _ => env.codec.fromSlice) (db.strs .influenceData)
    fun id => g.influence.lookup id

namespace Mirrors

variable {env : Setting J} {g : InMemory J} {db : Db}

theorem empty : Mirrors env InMemory.new Db.create where
  credentials := .empty
  sqn := .empty
  docs _ := .empty
  amfReg := .empty
  smfReg := .empty
  influence := .absent

theorem readKey (h : Mirrors env g db) (supi : String) :
    Redb.readKey env db supi = g.credentials.lookup supi := h.credentials.read supi

/-- A document that is put encodes to something that reads back. -/
theorem putDoc (hcodec : env.codec.RoundTrips) (doc : J) (db : Db) {set : Bytes → Db} {g' : InMemory J}
    (hset : ∀ bytes, env.codec.fromSlice bytes = some doc → Mirrors env g' (set bytes)) :
    (Redb.putDoc env doc set db).1 = .done (.ok ()) ∧ Mirrors env g' (Redb.putDoc env doc set db).2 := by
  obtain ⟨bytes, hbytes, hback⟩ := hcodec doc
  rw [Redb.putDoc, hbytes]
  exact ⟨rfl, hset bytes hback⟩

theorem mem_pairs {K V : Type} [DecidableEq K] {m : Map K V} {k : K} {v : V} :
    (k, v) ∈ InMemory.pairs m ↔ m.lookup k = some v := by
  rw [Map.lookup_eq_some_iff, InMemory.pairs, List.mem_map]
  constructor
  · rintro ⟨e, he, heq⟩
    cases heq
    exact he
  · exact fun h => ⟨_, h, rfl⟩

/-- What is listed is the same. -/
theorem listed {K : Type} [DecidableEq K] {t : Table K Bytes} {m : Map K J}
    (h : Encodes (fun _ => env.codec.fromSlice) t fun k => m.lookup k) (x : K × J) :
    x ∈ InMemory.pairs m ↔ x ∈ Redb.listDocs env t :=
  mem_pairs.trans (h.mem_listed (k := x.1) (v := x.2)).symm

theorem provision (h : Mirrors env g db) (haead : env.aead.Correct) (supi : String)
    (key : SubscriberKey) (nonce : Octets 12) :
    Mirrors env (g.provision supi key) (Redb.provision env db supi key nonce) where
  credentials := h.credentials.insert (Redb.openKey_encrypt haead supi nonce key)
    fun k => Map.lookup_insert_eq g.credentials supi k key
  sqn := h.sqn.insert (Octets.ofBytes?_val _) fun k => Map.lookup_insert_eq g.sqn supi k _
  docs := h.docs
  amfReg := h.amfReg
  smfReg := h.smfReg
  influence := h.influence

theorem setSqn (h : Mirrors env g db) (supi : String) (sqn : Sqn) :
    Mirrors env { g with sqn := g.sqn.insert supi sqn } (Redb.adoptSqn db supi sqn) where
  credentials := h.credentials
  sqn := h.sqn.insert (Octets.ofBytes?_val _) fun k => Map.lookup_insert_eq g.sqn supi k sqn
  docs := h.docs
  amfReg := h.amfReg
  smfReg := h.smfReg
  influence := h.influence

theorem nextSqn (h : Mirrors env g db) (supi : String) :
    (g.nextSqn supi).1 = (Redb.nextSqn env db supi).1 ∧
      Mirrors env (g.nextSqn supi).2 (Redb.nextSqn env db supi).2 := by
  rw [InMemory.nextSqn, Redb.nextSqn, h.readKey]
  split
  · have hrow := h.sqn.read supi
    rw [Redb.takeSqn, hrow]
    cases g.sqn.lookup supi with
    | none => exact ⟨rfl, h⟩
    | some sqn => exact ⟨rfl, h.setSqn supi _⟩
  · exact ⟨rfl, h⟩

theorem resyncSqn (h : Mirrors env g db) (supi : String) (rand : Aka.Rand) (auts : Aka.Auts) :
    (g.resyncSqn env.base.milenage supi rand auts).1 = (Redb.resyncSqn env db supi rand auts).1 ∧
      Mirrors env (g.resyncSqn env.base.milenage supi rand auts).2
        (Redb.resyncSqn env db supi rand auts).2 := by
  have hverify : Redb.verifyAuts env db supi rand auts =
      (g.credentials.lookup supi).bind fun key => Aka.sqnMsFromAuts env.base.milenage key rand auts := by
    rw [Redb.verifyAuts, h.readKey]
    rfl
  rw [InMemory.resyncSqn, Redb.resyncSqn, hverify]
  cases (g.credentials.lookup supi).bind fun key =>
      Aka.sqnMsFromAuts env.base.milenage key rand auts with
  | some sqnMs => exact ⟨rfl, h.setSqn supi sqnMs⟩
  | none => exact ⟨rfl, h⟩

theorem removeSubscriber (h : Mirrors env g db) (supi : String) :
    (g.removeSubscriber supi).1 = (Redb.removeSubscriber db supi).1 ∧
      Mirrors env (g.removeSubscriber supi).2 (Redb.removeSubscriber db supi).2 := by
  refine ⟨(h.credentials.isSome supi).symm, ?_⟩
  constructor
  · exact h.credentials.erase fun k => Map.lookup_erase_eq g.credentials supi k
  · exact h.sqn.erase fun k => Map.lookup_erase_eq g.sqn supi k
  · have hdocs : ∀ ds k, (g.removeSubscriber supi).2.docs.lookup (ds, k) =
        if decide (k.1 = supi) then none else g.docs.lookup (ds, k) := by
      intro ds k
      rw [InMemory.removeSubscriber, Map.lookup_retainKeys]
      by_cases hk : k.1 = supi <;> simp [hk]
    intro ds
    cases ds <;> exact (h.docs _).eraseWhere (hdocs _)
  · exact h.amfReg.erase fun k => Map.lookup_erase_eq g.amfReg supi k
  · refine h.smfReg.eraseWhere fun k => ?_
    rw [InMemory.removeSubscriber, Map.lookup_retainKeys]
    by_cases hk : k.1 = supi <;> simp [hk]
  · exact h.influence

theorem setDoc (h : Mirrors env g db) (ds : DataSet) (k : String × String) {doc : J} {bytes : Bytes}
    (hback : env.codec.fromSlice bytes = some doc) :
    Mirrors env { g with docs := g.docs.insert (ds, k) doc }
      (db.setPair (docTable ds) ((db.pairs (docTable ds)).insert k bytes)) := by
  refine ⟨h.credentials, h.sqn, ?_, h.amfReg, h.smfReg, h.influence⟩
  intro ds'
  by_cases hds : ds' = ds
  · subst hds
    rw [Db.setPair_pairs, if_pos rfl]
    refine (h.docs ds').insert hback fun k' => ?_
    rw [Map.lookup_insert_eq]
    simp only [Prod.mk.injEq, true_and]
  · rw [Db.setPair_pairs, if_neg fun htable => hds (docTable_injective htable)]
    intro k'
    have hother : (ds', k') ≠ (ds, k) := fun heq => hds (Prod.mk.inj heq).1
    have hsame := (Map.lookup_insert_eq g.docs (ds, k) (ds', k') doc).trans (if_neg hother)
    exact (h.docs ds' k').trans (congrArg (Option.map some) hsame.symm)

end Mirrors

/-! ### Withdrawal -/

/-- Nothing of the subscriber is in memory. -/
structure InMemory.Withdrawn (g : InMemory J) (supi : String) : Prop where
  credentials : g.credentials.lookup supi = none
  sqn : g.sqn.lookup supi = none
  docs : ∀ ds plmn, g.docs.lookup (ds, supi, plmn) = none
  amfReg : g.amfReg.lookup supi = none
  smfReg : ∀ psi, g.smfReg.lookup (supi, psi) = none

/-- No row of the subscriber is in the database. -/
structure Db.Withdrawn (db : Db) (supi : String) : Prop where
  credentials : (db.strs .credentials).row supi = none
  authState : (db.strs .authState).row supi = none
  docs : ∀ ds plmn, (db.pairs (docTable ds)).row (supi, plmn) = none
  amf3gppReg : (db.strs .amf3gppReg).row supi = none
  smfReg : ∀ psi, db.smfReg.row (supi, psi) = none

theorem InMemory.withdrawn (g : InMemory J) (supi : String) :
    (g.removeSubscriber supi).2.Withdrawn supi := by
  constructor
  · exact AList.lookup_erase supi g.credentials
  · exact AList.lookup_erase supi g.sqn
  · intro ds plmn
    rw [removeSubscriber, Map.lookup_retainKeys]
    simp
  · exact AList.lookup_erase supi g.amfReg
  · intro psi
    rw [removeSubscriber, Map.lookup_retainKeys]
    simp

/-- What is not in memory has no row. -/
theorem Mirrors.withdrawn {env : Setting J} {g : InMemory J} {db : Db} (h : Mirrors env g db)
    {supi : String} (hg : g.Withdrawn supi) : db.Withdrawn supi where
  credentials := h.credentials.row_eq_none hg.credentials
  authState := h.sqn.row_eq_none hg.sqn
  docs ds plmn := (h.docs ds).row_eq_none (hg.docs ds plmn)
  amf3gppReg := h.amfReg.row_eq_none hg.amfReg
  smfReg psi := h.smfReg.row_eq_none (hg.smfReg psi)

/-! ### Agreement -/

/-- Every operation keeps the stores alike and gives the same answer. -/
theorem simulates (env : Setting J) (haead : env.aead.Correct) (hcodec : env.codec.RoundTrips) :
    Runs.Simulates (InMemory.call env.base) (Redb.call env) (Mirrors env) Answer.Alike := by
  intro g db c h
  cases c with
  | provision supi key nonce => exact ⟨rfl, h.provision haead supi key nonce⟩
  | provisionHex supi k opc amf nonce =>
    simp only [InMemory.call, Redb.call]
    cases parseKey env.base k opc amf with
    | ok key => exact ⟨rfl, h.provision haead supi key nonce⟩
    | error e => exact ⟨rfl, h⟩
  | existsSubscriber supi =>
    refine ⟨congrArg Answer.flag ?_, h⟩
    rw [h.readKey]
  | nextSqn supi =>
    obtain ⟨hsqn, hnext⟩ := h.nextSqn supi
    exact ⟨congrArg Answer.sqn hsqn, hnext⟩
  | removeSubscriber supi =>
    obtain ⟨hexisted, hnext⟩ := h.removeSubscriber supi
    exact ⟨congrArg Answer.flag hexisted, hnext⟩
  | generateHeAv supi sqn rand mcc mnc =>
    refine ⟨congrArg Answer.av ?_, h⟩
    rw [InMemory.generateHeAv, Redb.generateHeAv, h.readKey]
  | resyncSqn supi rand auts =>
    obtain ⟨hvalid, hnext⟩ := h.resyncSqn supi rand auts
    exact ⟨congrArg Answer.flag hvalid, hnext⟩
  | getProvisioned ds supi plmn =>
    exact ⟨congrArg Answer.doc ((h.docs ds).read (supi, plmn)).symm, h⟩
  | putProvisioned ds supi plmn doc =>
    obtain ⟨hdone, hnext⟩ := Mirrors.putDoc hcodec doc db
      fun bytes hback => h.setDoc ds (supi, plmn) hback
    exact ⟨hdone.symm, hnext⟩
  | getAmfRegistration supi => exact ⟨congrArg Answer.doc (h.amfReg.read supi).symm, h⟩
  | putAmfRegistration supi doc =>
    have hset : ∀ bytes, env.codec.fromSlice bytes = some doc →
        Mirrors env { g with amfReg := g.amfReg.insert supi doc }
          (db.setStr .amf3gppReg ((db.strs .amf3gppReg).insert supi bytes)) := fun bytes hback =>
      ⟨h.credentials, h.sqn, h.docs,
        h.amfReg.insert hback fun k => Map.lookup_insert_eq g.amfReg supi k doc, h.smfReg, h.influence⟩
    obtain ⟨hdone, hnext⟩ := Mirrors.putDoc hcodec doc db hset
    exact ⟨hdone.symm, hnext⟩
  | removeAmfRegistration supi =>
    exact ⟨congrArg Answer.flag (h.amfReg.isSome supi).symm, h.credentials, h.sqn, h.docs,
      h.amfReg.erase fun k => Map.lookup_erase_eq g.amfReg supi k, h.smfReg, h.influence⟩
  | getSmfRegistration supi psi => exact ⟨congrArg Answer.doc (h.smfReg.read (supi, psi)).symm, h⟩
  | putSmfRegistration supi psi doc =>
    have hset : ∀ bytes, env.codec.fromSlice bytes = some doc →
        Mirrors env { g with smfReg := g.smfReg.insert (supi, psi) doc }
          { db with smfReg := db.smfReg.insert (supi, psi) bytes } := fun bytes hback =>
      ⟨h.credentials, h.sqn, h.docs, h.amfReg,
        h.smfReg.insert hback fun k => Map.lookup_insert_eq g.smfReg (supi, psi) k doc, h.influence⟩
    obtain ⟨hdone, hnext⟩ := Mirrors.putDoc hcodec doc db hset
    exact ⟨hdone.symm, hnext⟩
  | removeSmfRegistration supi psi =>
    exact ⟨congrArg Answer.flag (h.smfReg.isSome (supi, psi)).symm, h.credentials, h.sqn, h.docs,
      h.amfReg, h.smfReg.erase fun k => Map.lookup_erase_eq g.smfReg (supi, psi) k, h.influence⟩
  | putInfluenceData id doc =>
    have hset : ∀ bytes, env.codec.fromSlice bytes = some doc →
        Mirrors env { g with influence := g.influence.insert id doc }
          (db.setStr .influenceData ((db.strs .influenceData).insert id bytes)) := fun bytes hback =>
      ⟨h.credentials, h.sqn, h.docs, h.amfReg, h.smfReg,
        h.influence.insert hback fun k => Map.lookup_insert_eq g.influence id k doc⟩
    obtain ⟨hdone, hnext⟩ := Mirrors.putDoc hcodec doc db hset
    exact ⟨hdone.symm, hnext⟩
  | removeInfluenceData id =>
    exact ⟨congrArg Answer.flag (h.influence.isSome id).symm, h.credentials, h.sqn, h.docs,
      h.amfReg, h.smfReg, h.influence.erase fun k => Map.lookup_erase_eq g.influence id k⟩
  | listInfluenceData => exact ⟨Mirrors.listed h.influence, h⟩
  | listAmfRegistrations => exact ⟨Mirrors.listed h.amfReg, h⟩
  | listSmfRegistrations => exact ⟨Mirrors.listed h.smfReg, h⟩

/-- **Agreement.** Over every history from empty stores the two give the same answers, and a
subscriber that is removed leaves nothing in either. -/
theorem agreement (env : Setting J) (haead : env.aead.Correct) (hcodec : env.codec.RoundTrips)
    (calls : List (Call J)) :
    List.Forall₂ Answer.Alike (Runs.outputs (InMemory.call env.base) .new calls)
        (Runs.outputs (Redb.call env) .create calls) ∧
      ∀ supi,
        (Runs.after (InMemory.call env.base) .new (calls ++ [.removeSubscriber supi])).Withdrawn supi ∧
          (Runs.after (Redb.call env) .create (calls ++ [.removeSubscriber supi])).Withdrawn supi := by
  have hsim := simulates env haead hcodec
  refine ⟨hsim.outputs calls .empty, ?_⟩
  intro supi
  have hmirrors := hsim.after (calls ++ [.removeSubscriber supi]) Mirrors.empty
  rw [Runs.after_append] at hmirrors ⊢
  have hgone := (Runs.after (InMemory.call env.base) .new calls).withdrawn supi
  exact ⟨hgone, hmirrors.withdrawn hgone⟩

theorem agreement_booleans :
    List.Forall₂ Answer.Alike
        (Runs.outputs (InMemory.call booleans.base) .new
          [.putAmfRegistration "imsi-1" true, .listAmfRegistrations, .removeSubscriber "imsi-1"])
        (Runs.outputs (Redb.call booleans) .create
          [.putAmfRegistration "imsi-1" true, .listAmfRegistrations, .removeSubscriber "imsi-1"]) :=
  (agreement booleans correct_booleans roundTrips_booleans
    [.putAmfRegistration "imsi-1" true, .listAmfRegistrations, .removeSubscriber "imsi-1"]).1

end Radian.Subscribers
