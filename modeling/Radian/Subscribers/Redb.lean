import Mathlib.Logic.Equiv.Basic
import Radian.Keyed.Rows
import Radian.Subscribers.InMemory

/-!
# The persistent subscriber store

The store over a transactional database: encrypted credentials, plaintext sequence numbers, and
documents in JSON.  An operation is one transaction, or a read and then a write.

- `Db` — the tables.
- `Redb.call` — one operation, run alone.
- `Redb.takeSqn`, `Redb.adoptSqn` — the writes of those operations that read first.
-/

namespace Radian.Subscribers

open Keyed (Table)
open Aka (Sqn Rand Auts SubscriberKey AuthVector)

/-- AES-256-GCM. -/
structure Aead where
  encrypt : (key : Octets 32) → (nonce : Octets 12) → (aad msg : Bytes) → Bytes
  decrypt : (key : Octets 32) → (nonce : Octets 12) → (aad ct : Bytes) → Option Bytes

/-- What was encrypted decrypts. -/
def Aead.Correct (A : Aead) : Prop :=
  ∀ key nonce aad msg, A.decrypt key nonce aad (A.encrypt key nonce aad msg) = some msg

/-- `serde_json`, for documents in `J`. -/
structure Codec (J : Type) where
  toVec : J → Except String Bytes
  fromSlice : Bytes → Option J

/-- Every document can be written and reads back. -/
def Codec.RoundTrips {J : Type} (C : Codec J) : Prop :=
  ∀ doc, ∃ bytes, C.toVec doc = .ok bytes ∧ C.fromSlice bytes = some doc

/-- What a persistent store is built on, with its key-encryption key. -/
structure Setting (J : Type) where
  base : Base
  aead : Aead
  codec : Codec J
  kek : Octets 32

/-! ### The database -/

/-- The tables keyed by a string. -/
inductive StrTable where
  | credentials
  | authState
  | amf3gppReg
  | influenceData
  deriving DecidableEq, Repr

/-- The tables of provisioned documents, keyed by SUPI and serving PLMN. -/
inductive PairTable where
  | amData
  | smData
  | smfSelection
  | policyData
  | amPolicyData
  deriving DecidableEq, Repr

def docTable : DataSet → PairTable
  | .am => .amData
  | .sm => .smData
  | .smfSelection => .smfSelection
  | .policy => .policyData
  | .amPolicy => .amPolicyData

theorem docTable_injective : Function.Injective docTable := by
  intro a b h
  cases a <;> cases b <;> first | rfl | cases h

structure Db where
  strs : StrTable → Table String Bytes
  pairs : PairTable → Table (String × String) Bytes
  smfReg : Table (String × UInt8) Bytes

namespace Db

/-- A new database.  Opening it makes sure of all tables but one. -/
def create : Db where
  strs
    | .influenceData => none
    | _ => some ∅
  pairs _ := some ∅
  smfReg := some ∅

def setStr (db : Db) (n : StrTable) (t : Table String Bytes) : Db :=
  { db with strs := Function.update db.strs n t }

def setPair (db : Db) (n : PairTable) (t : Table (String × String) Bytes) : Db :=
  { db with pairs := Function.update db.pairs n t }

@[simp] theorem setStr_strs (db : Db) (n m : StrTable) (t : Table String Bytes) :
    (db.setStr n t).strs m = if m = n then t else db.strs m := Function.update_apply db.strs n t m

@[simp] theorem setStr_pairs (db : Db) (n : StrTable) (t : Table String Bytes) :
    (db.setStr n t).pairs = db.pairs := rfl

@[simp] theorem setStr_smfReg (db : Db) (n : StrTable) (t : Table String Bytes) :
    (db.setStr n t).smfReg = db.smfReg := rfl

@[simp] theorem setPair_strs (db : Db) (n : PairTable) (t : Table (String × String) Bytes) :
    (db.setPair n t).strs = db.strs := rfl

@[simp] theorem setPair_pairs (db : Db) (n m : PairTable) (t : Table (String × String) Bytes) :
    (db.setPair n t).pairs m = if m = n then t else db.pairs m :=
  Function.update_apply db.pairs n t m

@[simp] theorem setPair_smfReg (db : Db) (n : PairTable) (t : Table (String × String) Bytes) :
    (db.setPair n t).smfReg = db.smfReg := rfl

end Db

/-! ### Operations -/

namespace Redb

variable {J : Type} (env : Setting J)

/-- Nonce, then ciphertext and tag, bound to the SUPI. -/
def encrypt (supi : String) (nonce : Octets 12) (plaintext : Bytes) : Bytes :=
  nonce.val ++ env.aead.encrypt env.kek nonce supi.toUTF8.toList plaintext

def decrypt (supi : String) (blob : Bytes) : Option Bytes :=
  if blob.length < 12 then none
  else do
    let nonce ← Octets.ofBytes? 12 (blob.take 12)
    env.aead.decrypt env.kek nonce supi.toUTF8.toList (blob.drop 12)

/-- The credentials in a row. -/
def openKey (supi : String) (blob : Bytes) : Option SubscriberKey := do
  let plain ← decrypt env supi blob
  keyFromBytes plain

section

variable {env}

theorem decrypt_encrypt (haead : env.aead.Correct) (supi : String) (nonce : Octets 12) (msg : Bytes) :
    decrypt env supi (encrypt env supi nonce msg) = some msg := by
  have hlength : ¬ (encrypt env supi nonce msg).length < 12 := by
    rw [encrypt, List.length_append, nonce.property]
    omega
  have hnonce : (encrypt env supi nonce msg).take 12 = nonce.val := List.take_left' nonce.property
  have hrest : (encrypt env supi nonce msg).drop 12 =
      env.aead.encrypt env.kek nonce supi.toUTF8.toList msg := List.drop_left' nonce.property
  rw [decrypt, if_neg hlength, hnonce, hrest, Octets.ofBytes?_val]
  exact haead env.kek nonce _ msg

theorem openKey_encrypt (haead : env.aead.Correct) (supi : String) (nonce : Octets 12)
    (key : SubscriberKey) :
    openKey env supi (encrypt env supi nonce (keyToBytes key)) = some key := by
  rw [openKey, decrypt_encrypt haead]
  exact keyFromBytes_keyToBytes key

end

def provision (db : Db) (supi : String) (key : SubscriberKey) (nonce : Octets 12) : Db :=
  let blob := encrypt env supi nonce (keyToBytes key)
  let db := db.setStr .credentials ((db.strs .credentials).insert supi blob)
  db.setStr .authState ((db.strs .authState).insert supi (Octets.zero 6).val)

def readKey (db : Db) (supi : String) : Option SubscriberKey := do
  let blob ← (db.strs .credentials).row supi
  openKey env supi blob

def removeSubscriber (db : Db) (supi : String) : Bool × Db :=
  let existed := ((db.strs .credentials).row supi).isSome
  let db := db.setStr .credentials ((db.strs .credentials).erase supi)
  let db := db.setStr .authState ((db.strs .authState).erase supi)
  let db := db.setStr .amf3gppReg ((db.strs .amf3gppReg).erase supi)
  let db := { db with smfReg := db.smfReg.eraseWhere fun k => k.1 = supi }
  let db := [DataSet.am, .sm, .smfSelection, .policy, .amPolicy].foldl
    (fun db ds =>
      db.setPair (docTable ds) ((db.pairs (docTable ds)).eraseWhere fun k => k.1 = supi)) db
  (existed, db)

/-- The write of `nextSqn`; without a row it comes to nothing. -/
def takeSqn (db : Db) (supi : String) : Option Sqn × Db :=
  match ((db.strs .authState).row supi).bind (Octets.ofBytes? 6) with
  | some cur =>
      (some (incrementSqn cur),
        db.setStr .authState ((db.strs .authState).insert supi (incrementSqn cur).val))
  | none => (none, db)

def nextSqn (db : Db) (supi : String) : Option Sqn × Db :=
  if (readKey env db supi).isSome then takeSqn db supi else (none, db)

def generateHeAv (db : Db) (supi : String) (sqn : Sqn) (rand : Rand) (mcc mnc : String) :
    Option AuthVector := do
  let key ← readKey env db supi
  Aka.generate5gHeAv env.base.milenage key sqn rand mcc mnc

/-- The read of `resyncSqn`: the number in a token, when it verifies under the stored credentials. -/
def verifyAuts (db : Db) (supi : String) (rand : Rand) (auts : Auts) : Option Sqn := do
  let key ← readKey env db supi
  Aka.sqnMsFromAuts env.base.milenage key rand auts

/-- The write of `resyncSqn`. -/
def adoptSqn (db : Db) (supi : String) (sqnMs : Sqn) : Db :=
  db.setStr .authState ((db.strs .authState).insert supi sqnMs.val)

def resyncSqn (db : Db) (supi : String) (rand : Rand) (auts : Auts) : Bool × Db :=
  match verifyAuts env db supi rand auts with
  | some sqnMs => (true, adoptSqn db supi sqnMs)
  | none => (false, db)

/-- The document under a key. -/
def getDoc {K : Type} [DecidableEq K] (t : Table K Bytes) (k : K) : Option J := do
  let bytes ← t.row k
  env.codec.fromSlice bytes

/-- Write a document where `set` puts it. -/
def putDoc (doc : J) (set : Bytes → Db) (db : Db) : Answer J × Db :=
  match env.codec.toVec doc with
  | .ok bytes => (.done (.ok ()), set bytes)
  | .error e => (.done (.error e), db)

/-- The documents of a table that can be read. -/
def listDocs {K : Type} (t : Table K Bytes) : List (K × J) :=
  t.list.filterMap fun (k, bytes) => (env.codec.fromSlice bytes).map fun doc => (k, doc)

def call (db : Db) : Call J → Answer J × Db
  | .provision supi key nonce => (.done (.ok ()), provision env db supi key nonce)
  | .provisionHex supi k opc amf nonce =>
      match parseKey env.base k opc amf with
      | .ok key => (.done (.ok ()), provision env db supi key nonce)
      | .error e => (.done (.error e), db)
  | .existsSubscriber supi => (.flag (readKey env db supi).isSome, db)
  | .nextSqn supi => (.sqn (nextSqn env db supi).1, (nextSqn env db supi).2)
  | .removeSubscriber supi => (.flag (removeSubscriber db supi).1, (removeSubscriber db supi).2)
  | .generateHeAv supi sqn rand mcc mnc => (.av (generateHeAv env db supi sqn rand mcc mnc), db)
  | .resyncSqn supi rand auts =>
      (.flag (resyncSqn env db supi rand auts).1, (resyncSqn env db supi rand auts).2)
  | .getProvisioned ds supi plmn => (.doc (getDoc env (db.pairs (docTable ds)) (supi, plmn)), db)
  | .putProvisioned ds supi plmn doc =>
      putDoc env doc
        (fun bytes => db.setPair (docTable ds) ((db.pairs (docTable ds)).insert (supi, plmn) bytes)) db
  | .getAmfRegistration supi => (.doc (getDoc env (db.strs .amf3gppReg) supi), db)
  | .putAmfRegistration supi doc =>
      putDoc env doc
        (fun bytes => db.setStr .amf3gppReg ((db.strs .amf3gppReg).insert supi bytes)) db
  | .removeAmfRegistration supi =>
      (.flag ((db.strs .amf3gppReg).row supi).isSome,
        db.setStr .amf3gppReg ((db.strs .amf3gppReg).erase supi))
  | .getSmfRegistration supi psi => (.doc (getDoc env db.smfReg (supi, psi)), db)
  | .putSmfRegistration supi psi doc =>
      putDoc env doc (fun bytes => { db with smfReg := db.smfReg.insert (supi, psi) bytes }) db
  | .removeSmfRegistration supi psi =>
      (.flag (db.smfReg.row (supi, psi)).isSome, { db with smfReg := db.smfReg.erase (supi, psi) })
  | .putInfluenceData id doc =>
      putDoc env doc
        (fun bytes => db.setStr .influenceData ((db.strs .influenceData).insert id bytes)) db
  | .removeInfluenceData id =>
      (.flag ((db.strs .influenceData).row id).isSome,
        db.setStr .influenceData ((db.strs .influenceData).erase id))
  | .listInfluenceData => (.listed (listDocs env (db.strs .influenceData)), db)
  | .listAmfRegistrations => (.listed (listDocs env (db.strs .amf3gppReg)), db)
  | .listSmfRegistrations => (.sessions (listDocs env db.smfReg), db)

end Redb

/-! ### A setting -/

/-- A boolean in JSON. -/
def booleanText (doc : Bool) : Bytes :=
  if doc then [0x74, 0x72, 0x75, 0x65] else [0x66, 0x61, 0x6C, 0x73, 0x65]

def sampleKey : SubscriberKey := ⟨Octets.zero 16, Octets.zero 16, Octets.zero 2⟩

/-- Its AES-256-GCM ciphertext and tag for `imsi-1`, with zeros as KEK and nonce. -/
def sealedKey : Bytes :=
  Octets.ofNat 50
    0xcea7403d4d606b6e074ec5d3baf39d18726003ca37a62a74d1a2f58e7506358edd4aaa7792ca1990397686e0edffed475640

/-- JSON documents that are booleans, in a store whose subscriber has this key, with MILENAGE on the numbers of
its USIM and the zero challenge. -/
def booleans : Setting Bool where
  base := {
    milenage := {
      f1 := fun _ _ _ _ _ => Octets.zero 8
      f1star := fun _ _ _ sqn _ =>
        let mac := match Octets.value sqn.val with
          | 0 => 0x13d313fa20e98dbc
          | 1 => 0x99b1e502c16bb45e
          | _ => 0x27931fafa8437bd8
        ⟨Octets.ofNat 8 mac, Octets.length_ofNat 8 mac⟩
      f2345 := fun _ _ _ => (Octets.zero 8, Octets.zero 16, Octets.zero 16, Octets.zero 6)
      f5star := fun _ _ _ => ⟨Octets.ofNat 6 0x39352148bb65, Octets.length_ofNat 6 _⟩
      computeResStar := fun _ _ _ _ _ _ => some (Octets.zero 16)
      deriveKausf := fun _ _ _ _ _ => Octets.zero 32 }
    hexDecode := fun _ => .error "Odd number of digits" }
  aead := {
    encrypt := fun _ _ _ msg => Equiv.swap (keyToBytes sampleKey) sealedKey msg
    decrypt := fun _ _ _ ct => some (Equiv.swap (keyToBytes sampleKey) sealedKey ct) }
  codec := {
    toVec := fun doc => .ok (booleanText doc)
    fromSlice := fun bytes =>
      if bytes = booleanText true then some true
      else if bytes = booleanText false then some false
      else none }
  kek := Octets.zero 32

theorem roundTrips_booleans : booleans.codec.RoundTrips := by
  intro doc
  cases doc with
  | false => exact ⟨_, rfl, rfl⟩
  | true => exact ⟨_, rfl, rfl⟩

theorem correct_booleans : booleans.aead.Correct := fun _ _ _ _ => congrArg some (Equiv.swap_apply_self ..)

/-- The token of a USIM that has the number zero. -/
def sampleAuts : Auts :=
  Aka.computeAuts booleans.base.milenage sampleKey (Octets.zero 16) (Octets.zero 6)

end Radian.Subscribers
