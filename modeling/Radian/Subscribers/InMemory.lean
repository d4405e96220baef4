import Radian.Aka.Resync
import Radian.Keyed.Basic

/-!
# The subscriber store

The interface of the subscription store, and the store that keeps everything in memory.

- `Call`, `Answer` — the operations of a store and their results.
- `InMemory` — the store in memory; `InMemory.call` runs one operation.
-/

namespace Radian.Subscribers

open Keyed (Map)
open Aka (Sqn Rand Auts SubscriberKey AuthVector Milenage)

abbrev Bytes : Type := List UInt8

/-- A provisioned-data document family. -/
inductive DataSet where
  | am
  | sm
  | smfSelection
  | policy
  | amPolicy
  deriving DecidableEq, Repr

/-- What the stores are built on: the authentication functions, and the hex decoder. -/
structure Base where
  milenage : Milenage
  hexDecode : String → Except String Bytes

/-! ### Credentials -/

/-- K, OPc and AMF in the fixed layout of 34 bytes. -/
def keyToBytes (key : SubscriberKey) : Bytes := key.k.val ++ key.opc.val ++ key.amf.val

def keyFromBytes (b : Bytes) : Option SubscriberKey :=
  if b.length ≠ 34 then none
  else do
    let k ← Octets.ofBytes? 16 (b.take 16)
    let opc ← Octets.ofBytes? 16 ((b.drop 16).take 16)
    let amf ← Octets.ofBytes? 2 (b.drop 32)
    return { k, opc, amf }

theorem keyFromBytes_keyToBytes (key : SubscriberKey) : keyFromBytes (keyToBytes key) = some key := by
  have hk : (keyToBytes key).take 16 = key.k.val := by
    rw [keyToBytes, List.append_assoc, List.take_left' key.k.property]
  have hopc : ((keyToBytes key).drop 16).take 16 = key.opc.val := by
    rw [keyToBytes, List.append_assoc, List.drop_left' key.k.property,
      List.take_left' key.opc.property]
  have hamf : (keyToBytes key).drop 32 = key.amf.val := by
    rw [keyToBytes, List.drop_left']
    rw [List.length_append, key.k.property, key.opc.property]
  have hlength : (keyToBytes key).length = 34 := by
    simp only [keyToBytes, List.length_append, key.k.property, key.opc.property, key.amf.property]
  simp only [keyFromBytes, hlength, ne_eq, not_true_eq_false, if_false, hk, hopc, hamf,
    Octets.ofBytes?_val]
  rfl

def incrementSqn (sqn : Sqn) : Sqn :=
  ⟨Octets.increment sqn.val, (Octets.length_increment sqn.val).trans sqn.property⟩

/-- A hex string of `n` bytes. -/
def parseHex (base : Base) (n : Nat) (s : String) : Except String (Octets n) := do
  let bytes ← base.hexDecode s
  match Octets.ofBytes? n bytes with
  | some octets => return octets
  | none => throw s!"expected {n} bytes"

def parseKey (base : Base) (k opc amf : String) : Except String SubscriberKey := do
  let k ← parseHex base 16 k
  let opc ← parseHex base 16 opc
  let amf ← parseHex base 2 amf
  return { k, opc, amf }

/-! ### Operations -/

/-- An operation on a store of documents in `J`.  Provisioning comes with the nonce that a store that
encrypts draws for it. -/
inductive Call (J : Type) where
  | provision (supi : String) (key : SubscriberKey) (nonce : Octets 12)
  | provisionHex (supi k opc amf : String) (nonce : Octets 12)
  | existsSubscriber (supi : String)
  | nextSqn (supi : String)
  | removeSubscriber (supi : String)
  | generateHeAv (supi : String) (sqn : Sqn) (rand : Rand) (mcc mnc : String)
  | resyncSqn (supi : String) (rand : Rand) (auts : Auts)
  | getProvisioned (ds : DataSet) (supi plmn : String)
  | putProvisioned (ds : DataSet) (supi plmn : String) (doc : J)
  | getAmfRegistration (supi : String)
  | putAmfRegistration (supi : String) (doc : J)
  | removeAmfRegistration (supi : String)
  | getSmfRegistration (supi : String) (pduSessionId : UInt8)
  | putSmfRegistration (supi : String) (pduSessionId : UInt8) (doc : J)
  | removeSmfRegistration (supi : String) (pduSessionId : UInt8)
  | putInfluenceData (influenceId : String) (doc : J)
  | removeInfluenceData (influenceId : String)
  | listInfluenceData
  | listAmfRegistrations
  | listSmfRegistrations

inductive Answer (J : Type) where
  | done (result : Except String Unit)
  | flag (b : Bool)
  | sqn (sqn : Option Sqn)
  | av (av : Option AuthVector)
  | doc (doc : Option J)
  | listed (docs : List (String × J))
  | sessions (docs : List ((String × UInt8) × J))

/-! ### The store in memory -/

structure InMemory (J : Type) where
  credentials : Map String SubscriberKey
  sqn : Map String Sqn
  docs : Map (DataSet × String × String) J
  amfReg : Map String J
  smfReg : Map (String × UInt8) J
  influence : Map String J

namespace InMemory

variable {J : Type}

def new : InMemory J :=
  { credentials := ∅, sqn := ∅, docs := ∅, amfReg := ∅, smfReg := ∅, influence := ∅ }

def provision (g : InMemory J) (supi : String) (key : SubscriberKey) : InMemory J :=
  { g with sqn := g.sqn.insert supi (Octets.zero 6), credentials := g.credentials.insert supi key }

def removeSubscriber (g : InMemory J) (supi : String) : Bool × InMemory J :=
  ((g.credentials.lookup supi).isSome,
    { g with
      credentials := g.credentials.erase supi
      sqn := g.sqn.erase supi
      docs := g.docs.retainKeys fun k => k.2.1 ≠ supi
      amfReg := g.amfReg.erase supi
      smfReg := g.smfReg.retainKeys fun k => k.1 ≠ supi })

def nextSqn (g : InMemory J) (supi : String) : Option Sqn × InMemory J :=
  if (g.credentials.lookup supi).isSome then
    match g.sqn.lookup supi with
    | some sqn =>
        (some (incrementSqn sqn), { g with sqn := g.sqn.insert supi (incrementSqn sqn) })
    | none => (none, g)
  else (none, g)

def generateHeAv (M : Milenage) (g : InMemory J) (supi : String) (sqn : Sqn) (rand : Rand)
    (mcc mnc : String) : Option AuthVector := do
  let key ← g.credentials.lookup supi
  Aka.generate5gHeAv M key sqn rand mcc mnc

def resyncSqn (M : Milenage) (g : InMemory J) (supi : String) (rand : Rand) (auts : Auts) :
    Bool × InMemory J :=
  match (g.credentials.lookup supi).bind fun key => Aka.sqnMsFromAuts M key rand auts with
  | some sqnMs => (true, { g with sqn := g.sqn.insert supi sqnMs })
  | none => (false, g)

/-- The pairs of a map in its iteration order. -/
def pairs {K V : Type} (m : Map K V) : List (K × V) := m.entries.map fun e => (e.1, e.2)

def call (base : Base) (g : InMemory J) : Call J → Answer J × InMemory J
  | .provision supi key _ => (.done (.ok ()), g.provision supi key)
  | .provisionHex supi k opc amf _ =>
      match parseKey base k opc amf with
      | .ok key => (.done (.ok ()), g.provision supi key)
      | .error e => (.done (.error e), g)
  | .existsSubscriber supi => (.flag (g.credentials.lookup supi).isSome, g)
  | .nextSqn supi => (.sqn (g.nextSqn supi).1, (g.nextSqn supi).2)
  | .removeSubscriber supi => (.flag (g.removeSubscriber supi).1, (g.removeSubscriber supi).2)
  | .generateHeAv supi sqn rand mcc mnc =>
      (.av (g.generateHeAv base.milenage supi sqn rand mcc mnc), g)
  | .resyncSqn supi rand auts =>
      (.flag (g.resyncSqn base.milenage supi rand auts).1,
        (g.resyncSqn base.milenage supi rand auts).2)
  | .getProvisioned ds supi plmn => (.doc (g.docs.lookup (ds, supi, plmn)), g)
  | .putProvisioned ds supi plmn doc =>
      (.done (.ok ()), { g with docs := g.docs.insert (ds, supi, plmn) doc })
  | .getAmfRegistration supi => (.doc (g.amfReg.lookup supi), g)
  | .putAmfRegistration supi doc =>
      (.done (.ok ()), { g with amfReg := g.amfReg.insert supi doc })
  | .removeAmfRegistration supi =>
      (.flag (g.amfReg.lookup supi).isSome, { g with amfReg := g.amfReg.erase supi })
  | .getSmfRegistration supi psi => (.doc (g.smfReg.lookup (supi, psi)), g)
  | .putSmfRegistration supi psi doc =>
      (.done (.ok ()), { g with smfReg := g.smfReg.insert (supi, psi) doc })
  | .removeSmfRegistration supi psi =>
      (.flag (g.smfReg.lookup (supi, psi)).isSome,
        { g with smfReg := g.smfReg.erase (supi, psi) })
  | .putInfluenceData id doc =>
      (.done (.ok ()), { g with influence := g.influence.insert id doc })
  | .removeInfluenceData id =>
      (.flag (g.influence.lookup id).isSome, { g with influence := g.influence.erase id })
  | .listInfluenceData => (.listed (pairs g.influence), g)
  | .listAmfRegistrations => (.listed (pairs g.amfReg), g)
  | .listSmfRegistrations => (.sessions (pairs g.smfReg), g)

end InMemory

end Radian.Subscribers
