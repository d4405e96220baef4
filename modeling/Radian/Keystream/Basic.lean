import Mathlib.Data.List.Nodup
import Radian.Histories.Basic

/-!
# Counters under derived keys

Contexts that cipher with a counter: each has one signalling lane, whose counter goes on when its key
changes, and data lanes that start at zero under the key of the day.

- `Ctx.act` — sealing, taking a new secret into use, opening data lanes.
- `World` — contexts that come and go, with every sealing so far and every secret handed out.
- `Fresh` — no input is used twice, and data is sealed under keys of the context's own secrets.
- `Fresh.run` — it stays so while each act is allowed.
-/

namespace Keystream

variable {K Key Id B : Type} [DecidableEq Id]

/-- What one message is sealed with: a key, a counter and the label of the lane. -/
structure Use (Key B : Type) where
  key : Key
  count : BitVec 32
  label : B
  deriving DecidableEq, Repr

/-- What the next message is sealed with; without a key it is sent in clear. -/
structure Lane (Key B : Type) where
  key : Option Key
  count : BitVec 32
  label : B

namespace Lane

def use (l : Lane Key B) : Option (Use Key B) :=
  l.key.map fun key => { key, count := l.count, label := l.label }

def next (l : Lane Key B) : Lane Key B := { l with count := l.count + 1 }

/-- The counter does not wrap. -/
def Lasts (l : Lane Key B) : Prop := l.count.toNat + 1 < 2 ^ 32

theorem count_lt_next {l : Lane Key B} (h : l.Lasts) : l.count < l.next.count := by
  have hlt : l.count.toNat + 1 < 2 ^ 32 := h
  rw [BitVec.lt_def, next, BitVec.toNat_add]
  change l.count.toNat < (l.count.toNat + 1) % 2 ^ 32
  omega

end Lane

/-- The keys of a secret, the key without one, and the labels. -/
structure Derivation (K Key Id B : Type) where
  signalling : K → Key
  data : K → Key
  fallback : Key
  signallingLabel : B
  dataLabel : Id → B

/-- Different secrets and different purposes give different keys. -/
structure Derivation.Distinct (D : Derivation K Key Id B) (ks : List K) : Prop where
  signalling : ∀ k ∈ ks, ∀ k' ∈ ks, D.signalling k = D.signalling k' → k = k'
  data : ∀ k ∈ ks, ∀ k' ∈ ks, D.data k = D.data k' → k = k'
  apart : ∀ k ∈ ks, ∀ k' ∈ ks, D.signalling k ≠ D.data k'

/-! ### Contexts -/

structure Ctx (Key Id B : Type) where
  signal : Lane Key B
  /-- The data key of the last secret. -/
  up : Option Key
  lanes : List (Id × Lane Key B)

inductive Act (K Id : Type) where
  | signal
  | secure (k : K)
  | launch (ids : List Id)
  | data (id : Id)

/-- The first lane with an id. -/
def find (id : Id) : List (Id × Lane Key B) → Option (Lane Key B)
  | [] => none
  | l :: ls => if l.1 = id then some l.2 else find id ls

/-- Advance the first lane with an id. -/
def advance (id : Id) : List (Id × Lane Key B) → List (Id × Lane Key B)
  | [] => []
  | l :: ls => if l.1 = id then (l.1, l.2.next) :: ls else l :: advance id ls

section Lanes

variable {id id' : Id} {l l' : Lane Key B} {ls ls' : List (Id × Lane Key B)}

theorem mem_of_find (h : find id ls = some l) : (id, l) ∈ ls := by
  induction ls with
  | nil => cases h
  | cons x xs ih =>
    rw [find] at h
    split at h
    · rename_i hid
      cases h
      rw [← hid]
      exact List.mem_cons_self
    · exact List.mem_cons_of_mem _ (ih h)

theorem find_append (h : find id ls = some l) : find id (ls ++ ls') = some l := by
  induction ls with
  | nil => cases h
  | cons x xs ih =>
    rw [List.cons_append, find]
    rw [find] at h
    split at h
    · rename_i hid
      rw [if_pos hid, h]
    · rename_i hid
      rw [if_neg hid, ih h]

theorem find_advance_self (h : find id ls = some l) : find id (advance id ls) = some l.next := by
  induction ls with
  | nil => cases h
  | cons x xs ih =>
    rw [find] at h
    split at h
    · rename_i hid
      cases h
      rw [advance, if_pos hid, find, if_pos hid]
    · rename_i hid
      rw [advance, if_neg hid, find, if_neg hid, ih h]

theorem find_advance_of_ne (hne : id' ≠ id) : find id' (advance id ls) = find id' ls := by
  induction ls with
  | nil => rfl
  | cons x xs ih =>
    rw [advance]
    split
    · rename_i hid
      have hx : x.1 ≠ id' := fun hx => hne (hx.symm.trans hid)
      rw [find, if_neg hx, find, if_neg hx]
    · rw [find, find, ih]

/-- An advanced lane was there, perhaps with another counter. -/
theorem mem_advance (h : (id', l') ∈ advance id ls) :
    ∃ l, (id', l) ∈ ls ∧ l'.key = l.key ∧ l'.label = l.label := by
  induction ls with
  | nil => cases h
  | cons x xs ih =>
    rw [advance] at h
    split at h
    · obtain heq | hmem := List.mem_cons.mp h
      · obtain ⟨rfl, rfl⟩ := Prod.mk.inj heq
        exact ⟨x.2, List.mem_cons_self, rfl, rfl⟩
      · exact ⟨l', List.mem_cons_of_mem _ hmem, rfl, rfl⟩
    · obtain rfl | hmem := List.mem_cons.mp h
      · exact ⟨l', List.mem_cons_self, rfl, rfl⟩
      · obtain ⟨l, hl, hkey, hlabel⟩ := ih hmem
        exact ⟨l, List.mem_cons_of_mem _ hl, hkey, hlabel⟩

end Lanes

namespace Ctx

variable (D : Derivation K Key Id B)

/-- A context that has just come. -/
def start : Ctx Key Id B := { signal := ⟨none, 0, D.signallingLabel⟩, up := none, lanes := [] }

/-- A data lane that is opened now. -/
def lane (c : Ctx Key Id B) (id : Id) : Id × Lane Key B :=
  (id, ⟨some (c.up.getD D.fallback), 0, D.dataLabel id⟩)

def act (c : Ctx Key Id B) : Act K Id → Ctx Key Id B
  | .signal => { c with signal := c.signal.next }
  | .secure k =>
      { c with signal := { c.signal with key := some (D.signalling k) }, up := some (D.data k) }
  | .launch ids => { c with lanes := c.lanes ++ ids.map (c.lane D) }
  | .data id => { c with lanes := advance id c.lanes }

/-- What an act seals, and whether it is data. -/
def seals (c : Ctx Key Id B) : Act K Id → Option (Bool × Use Key B)
  | .signal => c.signal.use.map fun u => (false, u)
  | .data id => ((find id c.lanes).bind Lane.use).map fun u => (true, u)
  | _ => none

end Ctx

/-! ### Worlds -/

/-- A sealed message: in which context, whether it is data, and with what. -/
structure Sent (Key B : Type) where
  owner : Nat
  data : Bool
  use : Use Key B

/-- Contexts under names that may be given again, the number of each one's birth, and what has been
handed out and sent. -/
structure World (K Key Id B : Type) where
  ctxs : Nat → Option (Ctx Key Id B)
  born : Nat → Nat
  births : Nat
  handed : List (Nat × K)
  sent : List (Sent Key B)

inductive Event (K Id : Type) where
  | act (n : Nat) (a : Act K Id)
  | enter (n : Nat)
  | leave (n : Nat)

/-- The secret an act takes into use. -/
def Act.secret : Act K Id → Option K
  | .secure k => some k
  | _ => none

namespace World

variable (D : Derivation K Key Id B)

def start : World K Key Id B :=
  { ctxs := fun _ => none, born := fun _ => 0, births := 0, handed := [], sent := [] }

def step (w : World K Key Id B) : Event K Id → World K Key Id B
  | .act n a =>
      match w.ctxs n with
      | none => w
      | some c =>
          { w with
            ctxs := Function.update w.ctxs n (some (c.act D a))
            handed := w.handed ++ a.secret.toList.map fun k => (w.born n, k)
            sent := w.sent ++ (c.seals a).toList.map fun u => ⟨w.born n, u.1, u.2⟩ }
  | .enter n =>
      { w with
        ctxs := Function.update w.ctxs n (some (Ctx.start D))
        born := Function.update w.born n w.births
        births := w.births + 1 }
  | .leave n => { w with ctxs := Function.update w.ctxs n none }

end World

/-! ### Acts that are allowed -/

/-- Lanes that are opened under a key have labels of their own there. -/
def Ctx.Apart (D : Derivation K Key Id B) (c : Ctx Key Id B) (key : Key) (ids : List Id) : Prop :=
  ∀ i ∈ ids, (∀ j ∈ ids, D.dataLabel i = D.dataLabel j → i = j) ∧
    ∀ l ∈ c.lanes, l.2.key = some key → D.dataLabel l.1 = D.dataLabel i → l.1 = i

/-- Counters do not wrap, a secret is handed to one context, and data lanes are opened under a key,
with labels of their own. -/
def Ctx.Allowed (D : Derivation K Key Id B) (ks : List K) (handed : List (Nat × K)) (owner : Nat)
    (c : Ctx Key Id B) : Act K Id → Prop
  | .signal => c.signal.Lasts
  | .secure k => k ∈ ks ∧ ∀ d ∈ handed, d.2 = k → d.1 = owner
  | .launch ids => ids ≠ [] → ∃ key, c.up = some key ∧ c.Apart D key ids
  | .data id => ∀ l, find id c.lanes = some l → l.Lasts

def World.Allowed (D : Derivation K Key Id B) (ks : List K) (w : World K Key Id B) :
    Event K Id → Prop
  | .act n a => ∀ c, w.ctxs n = some c → c.Allowed D ks w.handed (w.born n) a
  | _ => True

/-! ### One context -/

/-- The keys of a context are those of its own secrets, and lanes under one key have different
labels. -/
structure Ctx.Derived (D : Derivation K Key Id B) (handed : List (Nat × K)) (owner : Nat)
    (c : Ctx Key Id B) : Prop where
  signal : ∀ key, c.signal.key = some key → ∃ k, (owner, k) ∈ handed ∧ key = D.signalling k
  up : ∀ key, c.up = some key → ∃ k, (owner, k) ∈ handed ∧ key = D.data k
  lanes : ∀ l ∈ c.lanes,
    (∃ k, (owner, k) ∈ handed ∧ l.2.key = some (D.data k)) ∧ l.2.label = D.dataLabel l.1
  clash : ∀ l ∈ c.lanes, ∀ l' ∈ c.lanes, l.2.key = l'.2.key → l.2.label = l'.2.label → l.1 = l'.1

/-- The counters of a context are past what was sealed. -/
def Ctx.Past (c : Ctx Key Id B) (data : Bool) (u : Use Key B) : Prop :=
  if data then
    ∃ id l, find id c.lanes = some l ∧ l.key = some u.key ∧ l.label = u.label ∧ u.count < l.count
  else u.count < c.signal.count

namespace Ctx

variable {D : Derivation K Key Id B} {ks : List K} {handed handed' : List (Nat × K)} {owner : Nat}
  {c : Ctx Key Id B} {a : Act K Id}

omit [DecidableEq Id] in
theorem derived_start : (start D).Derived D handed owner where
  signal _ h := nomatch h
  up _ h := nomatch h
  lanes _ h := nomatch h
  clash _ h := nomatch h

omit [DecidableEq Id] in
theorem Derived.mono (h : c.Derived D handed owner) (hsub : ∀ d ∈ handed, d ∈ handed') :
    c.Derived D handed' owner where
  signal key hkey := by
    obtain ⟨k, hk, heq⟩ := h.signal key hkey
    exact ⟨k, hsub _ hk, heq⟩
  up key hkey := by
    obtain ⟨k, hk, heq⟩ := h.up key hkey
    exact ⟨k, hsub _ hk, heq⟩
  lanes l hl := by
    obtain ⟨⟨k, hk, heq⟩, hlabel⟩ := h.lanes l hl
    exact ⟨⟨k, hsub _ hk, heq⟩, hlabel⟩
  clash := h.clash

/-- Opening lanes with labels of their own. -/
theorem Derived.launch (h : c.Derived D handed owner) {ids : List Id} {key : Key}
    (hup : c.up = some key) (hapart : c.Apart D key ids) :
    (c.act D (.launch ids : Act K Id)).Derived D handed owner where
  signal := h.signal
  up := h.up
  lanes l hl := by
    obtain hold | hnew := List.mem_append.mp hl
    · exact h.lanes l hold
    · obtain ⟨id, -, rfl⟩ := List.mem_map.mp hnew
      obtain ⟨k, hk, hkey⟩ := h.up key hup
      refine ⟨⟨k, hk, ?_⟩, rfl⟩
      rw [lane, hup, Option.getD_some, hkey]
  clash l hl l' hl' hkey hlabel := by
    obtain hold | hnew := List.mem_append.mp hl
    · obtain hold' | hnew' := List.mem_append.mp hl'
      · exact h.clash l hold l' hold' hkey hlabel
      · obtain ⟨id, hid, rfl⟩ := List.mem_map.mp hnew'
        rw [(h.lanes l hold).2] at hlabel
        rw [lane, hup, Option.getD_some] at hkey
        exact (hapart id hid).2 l hold hkey hlabel
    · obtain ⟨id, hid, rfl⟩ := List.mem_map.mp hnew
      obtain hold' | hnew' := List.mem_append.mp hl'
      · rw [(h.lanes l' hold').2] at hlabel
        rw [lane, hup, Option.getD_some] at hkey
        exact ((hapart id hid).2 l' hold' hkey.symm hlabel.symm).symm
      · obtain ⟨id', hid', rfl⟩ := List.mem_map.mp hnew'
        exact (hapart id hid).1 id' hid' hlabel

theorem Derived.act (h : c.Derived D handed owner) (hallowed : c.Allowed D ks handed owner a) :
    (c.act D a).Derived D (handed ++ a.secret.toList.map fun k => (owner, k)) owner := by
  cases a with
  | signal => exact Derived.mono ⟨h.signal, h.up, h.lanes, h.clash⟩ fun _ => List.mem_append_left _
  | secure k =>
    have hnew : (owner, k) ∈ handed ++ [(owner, k)] :=
      List.mem_append_right _ (List.mem_singleton_self _)
    have hold : c.Derived D (handed ++ [(owner, k)]) owner :=
      h.mono fun _ => List.mem_append_left _
    constructor
    · intro key hkey
      exact ⟨k, hnew, (Option.some.inj hkey).symm⟩
    · intro key hkey
      exact ⟨k, hnew, (Option.some.inj hkey).symm⟩
    · exact hold.lanes
    · exact hold.clash
  | launch ids =>
    refine Derived.mono ?_ fun _ => List.mem_append_left _
    by_cases hids : ids = []
    · subst hids
      have hsame : c.act D (.launch [] : Act K Id) = c := by
        rw [Ctx.act, List.map_nil, List.append_nil]
      rw [hsame]
      exact h
    · obtain ⟨key, hup, hapart⟩ := hallowed hids
      exact h.launch hup hapart
  | data id =>
    refine Derived.mono ⟨h.signal, h.up, ?_, ?_⟩ fun _ => List.mem_append_left _
    · intro l hl
      obtain ⟨l₀, hl₀, hkey, hlabel⟩ := mem_advance hl
      rw [hkey, hlabel]
      exact h.lanes _ hl₀
    · intro l hl l' hl' hkey hlabel
      obtain ⟨l₀, hl₀, hkey₀, hlabel₀⟩ := mem_advance hl
      obtain ⟨l₁, hl₁, hkey₁, hlabel₁⟩ := mem_advance hl'
      rw [hkey₀, hkey₁] at hkey
      rw [hlabel₀, hlabel₁] at hlabel
      exact h.clash (l.1, l₀) hl₀ (l'.1, l₁) hl₁ hkey hlabel

/-- Counters only go forward. -/
theorem Past.act {data : Bool} {u : Use Key B} (h : c.Past data u)
    (hallowed : c.Allowed D ks handed owner a) : (c.act D a).Past data u := by
  cases data with
  | false =>
    have hcount : u.count < c.signal.count := h
    cases a with
    | signal => exact BitVec.lt_trans hcount (Lane.count_lt_next hallowed)
    | secure k => exact hcount
    | launch ids => exact hcount
    | data id => exact hcount
  | true =>
    obtain ⟨id, l, hl, hkey, hlabel, hcount⟩ := h
    cases a with
    | signal => exact ⟨id, l, hl, hkey, hlabel, hcount⟩
    | secure k => exact ⟨id, l, hl, hkey, hlabel, hcount⟩
    | launch ids => exact ⟨id, l, find_append hl, hkey, hlabel, hcount⟩
    | data id' =>
      by_cases hid : id = id'
      · subst hid
        exact ⟨id, l.next, find_advance_self hl, hkey, hlabel,
          BitVec.lt_trans hcount (Lane.count_lt_next (hallowed l hl))⟩
      · exact ⟨id, l, (find_advance_of_ne hid).trans hl, hkey, hlabel, hcount⟩

theorem seals_eq_some {data : Bool} {u : Use Key B} (h : c.seals a = some (data, u)) :
    (a = .signal ∧ data = false ∧ c.signal.use = some u) ∨
      ∃ id l, a = .data id ∧ data = true ∧ find id c.lanes = some l ∧ l.use = some u := by
  cases a with
  | signal =>
    obtain ⟨u', hu, heq⟩ := Option.map_eq_some_iff.mp h
    obtain ⟨rfl, rfl⟩ := Prod.mk.inj heq
    exact .inl ⟨rfl, rfl, hu⟩
  | secure k => cases h
  | launch ids => cases h
  | data id =>
    obtain ⟨u', hu, heq⟩ := Option.map_eq_some_iff.mp h
    obtain ⟨rfl, rfl⟩ := Prod.mk.inj heq
    obtain ⟨l, hl, huse⟩ := Option.bind_eq_some_iff.mp hu
    exact .inr ⟨id, l, rfl, rfl, hl, huse⟩

end Ctx

theorem Lane.use_eq_some {l : Lane Key B} {u : Use Key B} (h : l.use = some u) :
    l.key = some u.key ∧ l.count = u.count ∧ l.label = u.label := by
  obtain ⟨key, hkey, rfl⟩ := Option.map_eq_some_iff.mp h
  exact ⟨hkey, rfl, rfl⟩

namespace Ctx

variable {D : Derivation K Key Id B} {ks : List K} {handed : List (Nat × K)} {owner : Nat}
  {c : Ctx Key Id B} {a : Act K Id} {data : Bool} {u : Use Key B}

/-- What has been sealed is past. -/
theorem past_seals (h : c.seals a = some (data, u)) (hallowed : c.Allowed D ks handed owner a) :
    (c.act D a).Past data u := by
  obtain ⟨rfl, rfl, huse⟩ | ⟨id, l, rfl, rfl, hl, huse⟩ := seals_eq_some h
  · obtain ⟨-, hcount, -⟩ := Lane.use_eq_some huse
    change u.count < c.signal.next.count
    rw [← hcount]
    exact Lane.count_lt_next hallowed
  · obtain ⟨hkey, hcount, hlabel⟩ := Lane.use_eq_some huse
    refine ⟨id, l.next, find_advance_self hl, hkey, hlabel, ?_⟩
    rw [← hcount]
    exact Lane.count_lt_next (hallowed l hl)

/-- What is sealed now is not past. -/
theorem not_past_seals (hderived : c.Derived D handed owner) (h : c.seals a = some (data, u)) :
    ¬ c.Past data u := by
  intro hpast
  obtain ⟨rfl, rfl, huse⟩ | ⟨id, l, rfl, rfl, hl, huse⟩ := seals_eq_some h
  · obtain ⟨-, hcount, -⟩ := Lane.use_eq_some huse
    have hlt : u.count < c.signal.count := hpast
    rw [hcount] at hlt
    exact BitVec.lt_irrefl _ hlt
  · obtain ⟨hkey, hcount, hlabel⟩ := Lane.use_eq_some huse
    obtain ⟨id', l', hl', hkey', hlabel', hlt⟩ := hpast
    have hid : id' = id := hderived.clash (id', l') (mem_of_find hl') (id, l) (mem_of_find hl)
      (hkey'.trans hkey.symm) (hlabel'.trans hlabel.symm)
    subst hid
    rw [hl] at hl'
    obtain rfl := Option.some.inj hl'
    rw [hcount] at hlt
    exact BitVec.lt_irrefl _ hlt

/-- The key of what is sealed is one of the context's own secrets. -/
theorem Derived.key_of_seals (hderived : c.Derived D handed owner)
    (h : c.seals a = some (data, u)) :
    ∃ k, (owner, k) ∈ handed ∧ u.key = if data then D.data k else D.signalling k := by
  obtain ⟨rfl, rfl, huse⟩ | ⟨id, l, rfl, rfl, hl, huse⟩ := seals_eq_some h
  · obtain ⟨hkey, -, -⟩ := Lane.use_eq_some huse
    exact hderived.signal _ hkey
  · obtain ⟨hkey, -, -⟩ := Lane.use_eq_some huse
    obtain ⟨⟨k, hk, hdata⟩, -⟩ := hderived.lanes _ (mem_of_find hl)
    exact ⟨k, hk, Option.mem_unique hkey hdata⟩

end Ctx

/-! ### One act after the other -/

namespace Ctx

variable (D : Derivation K Key Id B)

def acts (c : Ctx Key Id B) (as : List (Act K Id)) : Ctx Key Id B := as.foldl (act D) c

def sealsAll : Ctx Key Id B → List (Act K Id) → List (Bool × Use Key B)
  | _, [] => []
  | c, a :: as => (c.seals a).toList ++ (c.act D a).sealsAll as

/-- Each act is allowed where it comes. -/
def AllowedAll (ks : List K) (owner : Nat) :
    List (Nat × K) → Ctx Key Id B → List (Act K Id) → Prop
  | _, _, [] => True
  | handed, c, a :: as =>
      c.Allowed D ks handed owner a ∧
        AllowedAll ks owner (handed ++ a.secret.toList.map fun k => (owner, k)) (c.act D a) as

end Ctx

section Acts

variable {D : Derivation K Key Id B} {ks : List K} {w : World K Key Id B} {n : Nat}
  {c : Ctx Key Id B}

theorem World.run_acts (hc : w.ctxs n = some c) (as : List (Act K Id)) :
    Runs.run (World.step D) w (as.map (Event.act n)) =
      { w with
        ctxs := Function.update w.ctxs n (some (c.acts D as))
        handed := w.handed ++ (as.filterMap Act.secret).map fun k => (w.born n, k)
        sent := w.sent ++ (c.sealsAll D as).map fun u => ⟨w.born n, u.1, u.2⟩ } := by
  induction as generalizing w c with
  | nil =>
    have hsame : Function.update w.ctxs n (some c) = w.ctxs := by rw [← hc, Function.update_eq_self]
    simp [Ctx.acts, Ctx.sealsAll, hsame]
  | cons a as ih =>
    have hstep : w.step D (.act n a) = { w with
        ctxs := Function.update w.ctxs n (some (c.act D a))
        handed := w.handed ++ a.secret.toList.map fun k => (w.born n, k)
        sent := w.sent ++ (c.seals a).toList.map fun u => ⟨w.born n, u.1, u.2⟩ } := by
      rw [World.step, hc]
    have hfirst : (a :: as).filterMap Act.secret = a.secret.toList ++ as.filterMap Act.secret := by
      rw [List.filterMap_cons]
      cases a.secret <;> rfl
    rw [List.map_cons, Runs.run_cons, hstep, ih (Function.update_self ..), hfirst]
    simp [Ctx.acts, Ctx.sealsAll, List.append_assoc]

theorem World.along_acts (hc : w.ctxs n = some c) (as : List (Act K Id))
    (hallowed : c.AllowedAll D ks (w.born n) w.handed as) :
    Runs.Along (World.step D) (World.Allowed D ks) w (as.map (Event.act n)) := by
  induction as generalizing w c with
  | nil => trivial
  | cons a as ih =>
    rw [List.map_cons, Runs.Along]
    refine ⟨fun c' hc' => ?_, ?_⟩
    · rw [hc] at hc'
      exact Option.some.inj hc' ▸ hallowed.1
    · rw [World.step, hc]
      exact ih (Function.update_self ..) hallowed.2

end Acts

/-! ### Runs -/

/-- The books over a run: each secret has one owner, each context its own number, and what was sent is
past in its context. -/
structure Fresh (D : Derivation K Key Id B) (ks : List K) (w : World K Key Id B) : Prop where
  known : ∀ d ∈ w.handed, d.2 ∈ ks
  single : ∀ d ∈ w.handed, ∀ d' ∈ w.handed, d.2 = d'.2 → d.1 = d'.1
  born : ∀ n c, w.ctxs n = some c → w.born n < w.births
  apart : ∀ n c n' c', w.ctxs n = some c → w.ctxs n' = some c' → w.born n = w.born n' → n = n'
  derived : ∀ n c, w.ctxs n = some c → c.Derived D w.handed (w.born n)
  owners : ∀ s ∈ w.sent, s.owner < w.births
  keys : ∀ s ∈ w.sent, ∃ k, (s.owner, k) ∈ w.handed ∧
    s.use.key = if s.data then D.data k else D.signalling k
  past : ∀ s ∈ w.sent, ∀ n c, w.ctxs n = some c → w.born n = s.owner → c.Past s.data s.use
  /-- No two messages are sealed with the same input. -/
  nodup : (w.sent.map Sent.use).Nodup

namespace Fresh

variable {D : Derivation K Key Id B} {ks : List K} {w : World K Key Id B}

theorem start : Fresh D ks (World.start : World K Key Id B) where
  known _ h := nomatch h
  single _ h := nomatch h
  born _ _ h := nomatch h
  apart _ _ _ _ h := nomatch h
  derived _ _ h := nomatch h
  owners _ h := nomatch h
  keys _ h := nomatch h
  past _ h := nomatch h
  nodup := List.nodup_nil

/-- One key comes from one context, for one purpose. -/
theorem same_owner (hD : D.Distinct ks) (h : Fresh D ks w) {d d' : Nat × K} {data data' : Bool}
    (hd : d ∈ w.handed) (hd' : d' ∈ w.handed)
    (hkey : (if data then D.data d.2 else D.signalling d.2) =
      if data' then D.data d'.2 else D.signalling d'.2) : d.1 = d'.1 ∧ data = data' := by
  have hk := h.known d hd
  have hk' := h.known d' hd'
  cases data <;> cases data'
  · exact ⟨h.single d hd d' hd' (hD.signalling _ hk _ hk' hkey), rfl⟩
  · exact absurd hkey (hD.apart _ hk _ hk')
  · exact absurd hkey.symm (hD.apart _ hk' _ hk)
  · exact ⟨h.single d hd d' hd' (hD.data _ hk _ hk' hkey), rfl⟩

/-- What a context seals now has not been used. -/
theorem unused (hD : D.Distinct ks) (h : Fresh D ks w) {n : Nat} {c : Ctx Key Id B} {a : Act K Id}
    (hc : w.ctxs n = some c) {data : Bool} {u : Use Key B} (hu : c.seals a = some (data, u)) :
    u ∉ w.sent.map Sent.use := by
  intro hmem
  obtain ⟨s, hs, rfl⟩ := List.mem_map.mp hmem
  have hderived := h.derived n c hc
  obtain ⟨k, hk, hkey⟩ := hderived.key_of_seals hu
  obtain ⟨k', hk', hkey'⟩ := h.keys s hs
  obtain ⟨howner, rfl⟩ := h.same_owner hD hk hk' (hkey.symm.trans hkey')
  exact Ctx.not_past_seals hderived hu (h.past s hs n c hc howner)

theorem act (hD : D.Distinct ks) (h : Fresh D ks w) {n : Nat} {c : Ctx Key Id B} {a : Act K Id}
    (hc : w.ctxs n = some c) (hallowed : c.Allowed D ks w.handed (w.born n) a) :
    Fresh D ks
      { w with
        ctxs := Function.update w.ctxs n (some (c.act D a))
        handed := w.handed ++ a.secret.toList.map fun k => (w.born n, k)
        sent := w.sent ++ (c.seals a).toList.map fun u => ⟨w.born n, u.1, u.2⟩ } := by
  have hsecret : ∀ d ∈ a.secret.toList.map (fun k => (w.born n, k)),
      d.1 = w.born n ∧ d.2 ∈ ks ∧ ∀ d' ∈ w.handed, d'.2 = d.2 → d'.1 = w.born n := by
    intro d hd
    obtain ⟨k, hk, rfl⟩ := List.mem_map.mp hd
    cases a with
    | secure k' =>
      obtain rfl := List.mem_singleton.mp hk
      exact ⟨rfl, hallowed⟩
    | signal => cases hk
    | launch ids => cases hk
    | data id => cases hk
  have hseal : ∀ s ∈ (c.seals a).toList.map (fun u => (⟨w.born n, u.1, u.2⟩ : Sent Key B)),
      s.owner = w.born n ∧ c.seals a = some (s.data, s.use) := by
    intro s hs
    obtain ⟨u, hu, rfl⟩ := List.mem_map.mp hs
    exact ⟨rfl, Option.mem_toList.mp hu⟩
  -- a live name was live before, under the same number
  have hwas : ∀ m c', Function.update w.ctxs n (some (c.act D a)) m = some c' →
      ∃ c₀, w.ctxs m = some c₀ := by
    intro m c' hm
    obtain ⟨rfl, -⟩ | ⟨-, hm⟩ := Keyed.of_update_some hm
    · exact ⟨c, hc⟩
    · exact ⟨c', hm⟩
  constructor
  · intro d hd
    obtain hold | hnew := List.mem_append.mp hd
    · exact h.known d hold
    · exact (hsecret d hnew).2.1
  · intro d hd d' hd' heq
    obtain hold | hnew := List.mem_append.mp hd
    · obtain hold' | hnew' := List.mem_append.mp hd'
      · exact h.single d hold d' hold' heq
      · obtain ⟨howner, -, honly⟩ := hsecret d' hnew'
        exact (honly d hold heq).trans howner.symm
    · obtain ⟨howner, -, honly⟩ := hsecret d hnew
      obtain hold' | hnew' := List.mem_append.mp hd'
      · exact howner.trans (honly d' hold' heq.symm).symm
      · exact howner.trans (hsecret d' hnew').1.symm
  · intro m c' hm
    obtain ⟨c₀, hm₀⟩ := hwas m c' hm
    exact h.born m c₀ hm₀
  · intro m c' m' c'' hm hm' heq
    obtain ⟨c₀, hm₀⟩ := hwas m c' hm
    obtain ⟨c₁, hm₁⟩ := hwas m' c'' hm'
    exact h.apart m c₀ m' c₁ hm₀ hm₁ heq
  · intro m c' hm
    obtain ⟨rfl, rfl⟩ | ⟨-, hm⟩ := Keyed.of_update_some hm
    · exact (h.derived _ c hc).act hallowed
    · exact (h.derived m c' hm).mono fun _ => List.mem_append_left _
  · intro s hs
    obtain hold | hnew := List.mem_append.mp hs
    · exact h.owners s hold
    · rw [(hseal s hnew).1]
      exact h.born n c hc
  · intro s hs
    obtain hold | hnew := List.mem_append.mp hs
    · obtain ⟨k, hk, hkey⟩ := h.keys s hold
      exact ⟨k, List.mem_append_left _ hk, hkey⟩
    · obtain ⟨howner, hu⟩ := hseal s hnew
      obtain ⟨k, hk, hkey⟩ := (h.derived n c hc).key_of_seals hu
      exact ⟨k, List.mem_append_left _ (howner ▸ hk), hkey⟩
  · intro s hs m c' hm howner
    obtain hold | hnew := List.mem_append.mp hs
    · obtain ⟨rfl, rfl⟩ | ⟨-, hm⟩ := Keyed.of_update_some hm
      · exact (h.past s hold _ c hc howner).act hallowed
      · exact h.past s hold m c' hm howner
    · obtain ⟨hown, hu⟩ := hseal s hnew
      obtain ⟨c₀, hm₀⟩ := hwas m c' hm
      obtain rfl := h.apart m c₀ n c hm₀ hc (howner.trans hown)
      obtain ⟨-, rfl⟩ | ⟨hne, -⟩ := Keyed.of_update_some hm
      · exact Ctx.past_seals hu hallowed
      · exact absurd rfl hne
  · rw [List.map_append, List.nodup_append']
    refine ⟨h.nodup, ?_, ?_⟩
    · cases c.seals a <;> simp
    · intro u hold hnew
      obtain ⟨s, hs, rfl⟩ := List.mem_map.mp hnew
      exact h.unused hD hc (hseal s hs).2 hold

theorem enter (h : Fresh D ks w) (n : Nat) :
    Fresh D ks
      { w with
        ctxs := Function.update w.ctxs n (some (Ctx.start D))
        born := Function.update w.born n w.births
        births := w.births + 1 } := by
  constructor
  · exact h.known
  · exact h.single
  · exact fun _ _ hm => Histories.lt_entered h.born hm
  · exact fun _ _ _ _ hm hm' heq => Histories.apart_entered h.born h.apart hm hm' heq
  · intro m c' hm
    obtain ⟨-, rfl, -⟩ | ⟨-, hm, hborn⟩ := Histories.entered_cases w.born w.births hm
    · exact Ctx.derived_start
    · have hderived := h.derived m c' hm
      rwa [← hborn] at hderived
  · exact fun s hs => Nat.lt_succ_of_lt (h.owners s hs)
  · exact h.keys
  · intro s hs m c' hm howner
    obtain ⟨-, -, hborn⟩ | ⟨-, hm, hborn⟩ := Histories.entered_cases w.born w.births hm
    · have hlt := h.owners s hs
      have hsame : w.births = s.owner := hborn.symm.trans howner
      omega
    · exact h.past s hs m c' hm (hborn.symm.trans howner)
  · exact h.nodup

theorem leave (h : Fresh D ks w) (n : Nat) :
    Fresh D ks { w with ctxs := Function.update w.ctxs n none } where
  known := h.known
  single := h.single
  born m c hm := h.born m c (Keyed.of_update_none hm).2
  apart m c m' c' hm hm' heq := h.apart m c m' c' (Keyed.of_update_none hm).2 (Keyed.of_update_none hm').2 heq
  derived m c hm := h.derived m c (Keyed.of_update_none hm).2
  owners := h.owners
  keys := h.keys
  past s hs m c hm := h.past s hs m c (Keyed.of_update_none hm).2
  nodup := h.nodup

theorem step (hD : D.Distinct ks) (h : Fresh D ks w) {e : Event K Id} (hallowed : w.Allowed D ks e) :
    Fresh D ks (w.step D e) := by
  cases e with
  | act n a =>
    cases hc : w.ctxs n with
    | none =>
      rw [World.step, hc]
      exact h
    | some c =>
      rw [World.step, hc]
      exact h.act hD hc (hallowed c hc)
  | enter n => exact h.enter n
  | leave n => exact h.leave n

/-- Over a run of acts that are allowed, no input is used twice. -/
theorem run (hD : D.Distinct ks) (h : Fresh D ks w) {es : List (Event K Id)}
    (halong : Runs.Along (World.step D) (World.Allowed D ks) w es) :
    Fresh D ks (Runs.run (World.step D) w es) :=
  Runs.invariant_along (fun _ _ hallowed h => h.step hD hallowed) halong h

end Fresh

end Keystream
