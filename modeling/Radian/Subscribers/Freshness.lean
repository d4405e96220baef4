import Radian.Subscribers.Agreement

/-!
# Fresh sequence numbers

One subscriber's numbers, between a store that issues challenges and a USIM that answers a stale one
with a token of its own number.  Challenges and tokens may come late, in any order and again.

- `World`, `step` — the store, the USIM, and what is on its way between them.
- `Serves` — what a store does to the number of a subscriber; both stores do.
- `fresh_iff` — the numbers issued increase exactly when the store never counts on from a number that
  is behind the last one issued, or from the last number there is.
- `increasing_of_count` — without resynchronisation that is so for fewer than `2 ^ 48` numbers.
-/

namespace Radian.Subscribers.Freshness

open Aka (Sqn Rand Auts SubscriberKey Milenage)

variable {J σ : Type}

/-! ### The subscriber's world -/

structure Challenge where
  rand : Rand
  sqn : Sqn
  deriving DecidableEq

/-- A token, with the challenge it answers and the number it conceals. -/
structure Token where
  rand : Rand
  auts : Auts
  sqnMs : Sqn
  deriving DecidableEq

/-- The store, the USIM's number, the challenges issued and the tokens built so far, newest first, and
the number adopted since the last challenge. -/
structure World (σ : Type) where
  store : σ
  sqnMs : Sqn
  issued : List Challenge
  tokens : List Token
  adopted : Option Sqn

/-- A challenge is issued; one reaches the USIM; the USIM meets a fresher number elsewhere; a token
reaches the store; or the store is called for something else. -/
inductive Event (J : Type) where
  | next (rand : Rand)
  | receive (i : Nat)
  | elsewhere (sqn : Sqn)
  | deliver (i : Nat)
  | other (c : Call J)

def Event.takes : Event J → Bool
  | .next _ => true
  | _ => false

def Event.delivers : Event J → Bool
  | .deliver _ => true
  | _ => false

/-- The call provisions or withdraws the subscriber, or moves its number. -/
def concerns (supi : String) : Call J → Bool
  | .provision supi' .. | .provisionHex supi' .. | .removeSubscriber supi' => supi' = supi
  | .nextSqn supi' | .resyncSqn supi' .. => supi' = supi
  | _ => false

/-- The USIM compares the number of a challenge with its own. -/
def receive (M : Milenage) (key : SubscriberKey) (w : World σ) (c : Challenge) : World σ :=
  if Octets.value c.sqn.val ≤ Octets.value w.sqnMs.val then
    { w with tokens := ⟨c.rand, Aka.computeAuts M key c.rand w.sqnMs, w.sqnMs⟩ :: w.tokens }
  else { w with sqnMs := c.sqn }

section Step

variable (call : σ → Call J → Answer J × σ) (M : Milenage) (supi : String) (key : SubscriberKey)

def step (w : World σ) : Event J → World σ
  | .next rand =>
      match call w.store (.nextSqn supi) with
      | (.sqn (some sqn), s) =>
          { w with store := s, issued := ⟨rand, sqn⟩ :: w.issued, adopted := none }
      | (_, s) => { w with store := s }
  | .receive i =>
      match w.issued[i]? with
      | some c => receive M key w c
      | none => w
  | .elsewhere sqn =>
      if Octets.value w.sqnMs.val < Octets.value sqn.val then { w with sqnMs := sqn } else w
  | .deliver i =>
      match w.tokens[i]? with
      | some t =>
          match call w.store (.resyncSqn supi t.rand t.auts) with
          | (.flag true, s) => { w with store := s, adopted := some t.sqnMs }
          | (_, s) => { w with store := s }
      | none => w
  | .other c => if concerns supi c then w else { w with store := (call w.store c).2 }

end Step

def start (store : σ) (sqnMs : Sqn) : World σ :=
  { store := store, sqnMs := sqnMs, issued := [], tokens := [], adopted := none }

/-! ### Freshness -/

/-- Each challenge has a higher number than those before it. -/
def Increasing (w : World σ) : Prop :=
  w.issued.Pairwise fun c old => Octets.value old.sqn.val < Octets.value c.sqn.val

/-- The number from which the store counts on: the one adopted since its last challenge, or else the
last one issued. -/
def World.counted (w : World σ) : Sqn :=
  w.adopted.getD ((w.issued.head?.map Challenge.sqn).getD (Octets.zero 6))

/-- After its first challenge a subscriber's store counts on from a number that is not behind the last
one issued and is not the last of all. -/
def Heeds (w : World σ) : Event J → Prop
  | .next _ =>
      ∀ last ∈ w.issued.head?,
        Octets.value last.sqn.val ≤ Octets.value w.counted.val ∧
          Octets.value w.counted.val + 1 < 2 ^ 48
  | _ => True

instance : ∀ (w : World σ) (e : Event J), Decidable (Heeds w e)
  | w, .next _ => inferInstanceAs (Decidable (∀ last ∈ w.issued.head?, _ ∧ _))
  | _, .receive _ => inferInstanceAs (Decidable True)
  | _, .elsewhere _ => inferInstanceAs (Decidable True)
  | _, .deliver _ => inferInstanceAs (Decidable True)
  | _, .other _ => inferInstanceAs (Decidable True)

/-- What a store does to the number of a subscriber whose number it knows. -/
structure Serves (call : σ → Call J → Answer J × σ) (M : Milenage) (supi : String)
    (key : SubscriberKey) (known : σ → Sqn → Prop) : Prop where
  next : ∀ {s n}, known s n →
    (call s (.nextSqn supi)).1 = .sqn (some (incrementSqn n)) ∧
      known (call s (.nextSqn supi)).2 (incrementSqn n)
  resync : ∀ {s n rand auts sqnMs}, known s n → Aka.sqnMsFromAuts M key rand auts = some sqnMs →
    (call s (.resyncSqn supi rand auts)).1 = .flag true ∧
      known (call s (.resyncSqn supi rand auts)).2 sqnMs
  other : ∀ {s n c}, concerns supi c = false → known s n → known (call s c).2 n

theorem value_incrementSqn (sqn : Sqn) :
    Octets.value (incrementSqn sqn).val = (Octets.value sqn.val + 1) % 2 ^ 48 := by
  have hvalue := Octets.value_increment sqn.val
  rwa [sqn.property] at hvalue

theorem value_lt (sqn : Sqn) : Octets.value sqn.val < 2 ^ 48 := by
  have hvalue := Octets.value_lt sqn.val
  rwa [sqn.property] at hvalue

section Runs

variable {call : σ → Call J → Answer J × σ} {M : Milenage} {supi : String} {key : SubscriberKey}
  {known : σ → Sqn → Prop}

/-- The store knows the number from which it counts on, and the tokens are the USIM's. -/
structure Counts (M : Milenage) (key : SubscriberKey) (known : σ → Sqn → Prop) (w : World σ) :
    Prop where
  known : known w.store w.counted
  tokens : ∀ t ∈ w.tokens, t.auts = Aka.computeAuts M key t.rand t.sqnMs

theorem step_next (hserves : Serves call M supi key known) {w : World σ}
    (h : Counts M key known w) (rand : Rand) :
    step call M supi key w (.next rand) =
      { w with
        store := (call w.store (.nextSqn supi)).2
        issued := ⟨rand, incrementSqn w.counted⟩ :: w.issued
        adopted := none } := by
  have hanswer := (hserves.next h.known).1
  rw [step, show call w.store (.nextSqn supi) = (_, (call w.store (.nextSqn supi)).2) from
    Prod.ext hanswer rfl]

theorem counts_step (hserves : Serves call M supi key known) {w : World σ}
    (h : Counts M key known w) (e : Event J) : Counts M key known (step call M supi key w e) := by
  cases e with
  | next rand =>
    rw [step_next hserves h]
    exact ⟨(hserves.next h.known).2, h.tokens⟩
  | receive i =>
    simp only [step]
    split
    · rename_i c _
      unfold receive
      split
      · refine ⟨h.known, ?_⟩
        intro t ht
        rcases List.mem_cons.mp ht with rfl | hold
        · rfl
        · exact h.tokens t hold
      · exact ⟨h.known, h.tokens⟩
    · exact h
  | elsewhere sqn =>
    simp only [step]
    split
    · exact ⟨h.known, h.tokens⟩
    · exact h
  | deliver i =>
    simp only [step]
    split
    · rename_i t hi
      have hauts := h.tokens t (List.mem_of_getElem? hi)
      have hverified : Aka.sqnMsFromAuts M key t.rand t.auts = some t.sqnMs := by
        rw [hauts, Aka.sqnMsFromAuts_computeAuts]
      obtain ⟨hanswer, hknown⟩ := hserves.resync h.known hverified
      rw [show call w.store (.resyncSqn supi t.rand t.auts) =
        (_, (call w.store (.resyncSqn supi t.rand t.auts)).2) from Prod.ext hanswer rfl]
      exact ⟨hknown, h.tokens⟩
    · exact h
  | other c =>
    simp only [step]
    split
    · exact h
    · rename_i hc
      exact ⟨hserves.other (Bool.not_eq_true _ ▸ hc) h.known, h.tokens⟩

theorem issued_step (w : World σ) {e : Event J} (htakes : e.takes = false) :
    (step call M supi key w e).issued = w.issued := by
  cases e with
  | next rand => cases htakes
  | receive i =>
    simp only [step, receive]
    split
    · split <;> rfl
    · rfl
  | elsewhere sqn =>
    simp only [step]
    split <;> rfl
  | deliver i =>
    simp only [step]
    split
    · split <;> rfl
    · rfl
  | other c =>
    simp only [step]
    split <;> rfl

/-- A number is above all issued before exactly when it is above the last. -/
theorem above_issued {w : World σ} (hw : Increasing w) (n : Nat) :
    (∀ old ∈ w.issued, Octets.value old.sqn.val < n) ↔
      ∀ last ∈ w.issued.head?, Octets.value last.sqn.val < n := by
  unfold Increasing at hw
  cases hissued : w.issued with
  | nil => simp
  | cons last earlier =>
    rw [hissued, List.pairwise_cons] at hw
    constructor
    · intro h last' hlast
      rw [← Option.some_inj.mp hlast]
      exact h last List.mem_cons_self
    · intro h old hold
      have hlast := h last rfl
      rcases List.mem_cons.mp hold with rfl | hearlier
      · exact hlast
      · exact Nat.lt_trans (hw.1 old hearlier) hlast

/-- Only a step that issues a number can break the order. -/
theorem increasing_step_iff (hserves : Serves call M supi key known) {w : World σ}
    (h : Counts M key known w) (e : Event J) :
    Increasing (step call M supi key w e) ↔ Increasing w ∧ Heeds w e := by
  cases e with
  | next rand =>
    have hlimit := value_lt w.counted
    have hnext := value_incrementSqn w.counted
    rw [step_next hserves h]
    refine (List.pairwise_cons.trans and_comm).trans (and_congr_right fun hw => ?_)
    refine (above_issued hw (Octets.value (incrementSqn w.counted).val)).trans ?_
    refine forall_congr' fun last => imp_congr_right fun _ => ?_
    by_cases hwrap : Octets.value w.counted.val + 1 = 2 ^ 48
    · rw [hwrap, Nat.mod_self] at hnext
      omega
    · rw [Nat.mod_eq_of_lt (by omega)] at hnext
      omega
  | _ =>
    rw [Increasing, issued_step w rfl]
    exact (and_iff_left trivial).symm

theorem fresh_of_serves (hserves : Serves call M supi key known) {store : σ}
    (hknown : known store (Octets.zero 6)) (sqnMs : Sqn) (es : List (Event J)) :
    Increasing (Runs.run (step call M supi key) (start store sqnMs) es) ↔
      Runs.Along (step call M supi key) Heeds (start store sqnMs) es := by
  have hcounts : Counts M key known (start store sqnMs) := ⟨hknown, nofun⟩
  have hiff := Runs.holds_run_iff (fun _ e hc => increasing_step_iff hserves hc e)
    (Runs.along_of_step (fun _ e hc => counts_step hserves hc e) es hcounts)
  exact hiff.trans (and_iff_right .nil)

/-! ### Without resynchronisation -/

theorem adopted_step (w : World σ) {e : Event J} (htakes : e.takes = false)
    (hdelivers : e.delivers = false) : (step call M supi key w e).adopted = w.adopted := by
  cases e with
  | next rand => cases htakes
  | receive i =>
    simp only [step, receive]
    split
    · split <;> rfl
    · rfl
  | elsewhere sqn =>
    simp only [step]
    split <;> rfl
  | deliver i => cases hdelivers
  | other c =>
    simp only [step]
    split <;> rfl

/-- A store that adopts nothing counts the numbers it takes. -/
theorem heeds_of_count (hserves : Serves call M supi key known) {w : World σ} {es : List (Event J)}
    (h : Counts M key known w) (hadopted : w.adopted = none)
    (hcounted : Octets.value w.counted.val = w.issued.length)
    (hes : ∀ e ∈ es, e.delivers = false) (hfew : w.issued.length + es.countP Event.takes < 2 ^ 48) :
    Runs.Along (step call M supi key) Heeds w es := by
  induction es generalizing w with
  | nil => trivial
  | cons e es ih =>
    have hrest : ∀ e ∈ es, e.delivers = false := fun e he => hes e (List.mem_cons_of_mem _ he)
    have hafter := counts_step hserves h e
    cases htakes : e.takes with
    | true =>
      obtain ⟨rand, rfl⟩ : ∃ rand, e = .next rand := by
        cases e with
        | next rand => exact ⟨rand, rfl⟩
        | _ => cases htakes
      rw [List.countP_cons_of_pos htakes] at hfew
      have hnext := value_incrementSqn w.counted
      rw [hcounted, Nat.mod_eq_of_lt (by omega)] at hnext
      refine ⟨fun last hlast => ?_, ?_⟩
      · have hlast' : w.counted = last.sqn := by rw [World.counted, hadopted, hlast]; rfl
        rw [hcounted, ← hlast', hcounted]
        omega
      · rw [step_next hserves h] at hafter ⊢
        exact ih hafter rfl hnext hrest (by rw [List.length_cons]; omega)
    | false =>
      rw [List.countP_cons_of_neg (by rw [htakes]; exact Bool.false_ne_true)] at hfew
      have hissued : (step call M supi key w e).issued = w.issued := issued_step w htakes
      have hsame : (step call M supi key w e).adopted = w.adopted :=
        adopted_step w htakes (hes e List.mem_cons_self)
      refine ⟨?_, ih hafter (hsame.trans hadopted) ?_ hrest (by rw [hissued]; exact hfew)⟩
      · cases e with
        | next rand => cases htakes
        | _ => trivial
      · rw [World.counted, hsame, hissued]
        exact hcounted

/-- Without resynchronisation the numbers increase as long as there are any left. -/
theorem increasing_of_count (hserves : Serves call M supi key known) {store : σ}
    (hknown : known store (Octets.zero 6)) (sqnMs : Sqn) {es : List (Event J)}
    (hes : ∀ e ∈ es, e.delivers = false) (hfew : es.countP Event.takes < 2 ^ 48) :
    Increasing (Runs.run (step call M supi key) (start store sqnMs) es) := by
  have hstart : (start store sqnMs).issued.length + es.countP Event.takes < 2 ^ 48 :=
    (Nat.zero_add _).symm ▸ hfew
  refine (fresh_of_serves hserves hknown sqnMs es).mpr ?_
  exact heeds_of_count hserves ⟨hknown, nofun⟩ rfl rfl hes hstart

end Runs

/-! ### The two stores -/

/-- The subscriber has these credentials and this number. -/
def Known (supi : String) (key : SubscriberKey) (g : InMemory J) (n : Sqn) : Prop :=
  g.credentials.lookup supi = some key ∧ g.sqn.lookup supi = some n

theorem known_provision (g : InMemory J) (supi : String) (key : SubscriberKey) :
    Known supi key (g.provision supi key) (Octets.zero 6) :=
  ⟨AList.lookup_insert g.credentials, AList.lookup_insert g.sqn⟩

section Known

variable {supi supi' : String} {key : SubscriberKey} {g : InMemory J} {n : Sqn}

theorem Known.setSqn (h : Known supi key g n) (sqn : Sqn) :
    Known supi key { g with sqn := g.sqn.insert supi sqn } sqn :=
  ⟨h.1, AList.lookup_insert g.sqn⟩

/-- Other subscribers' numbers and credentials do not matter. -/
theorem Known.setOther (h : Known supi key g n) (hne : supi ≠ supi') (sqn : Sqn) :
    Known supi key { g with sqn := g.sqn.insert supi' sqn } n :=
  ⟨h.1, (AList.lookup_insert_ne hne).trans h.2⟩

theorem Known.provision (h : Known supi key g n) (hne : supi ≠ supi') (key' : SubscriberKey) :
    Known supi key (g.provision supi' key') n :=
  ⟨(AList.lookup_insert_ne hne).trans h.1, (AList.lookup_insert_ne hne).trans h.2⟩

theorem Known.remove (h : Known supi key g n) (hne : supi ≠ supi') :
    Known supi key (g.removeSubscriber supi').2 n :=
  ⟨(AList.lookup_erase_ne hne).trans h.1, (AList.lookup_erase_ne hne).trans h.2⟩

end Known

theorem serves_inMemory (base : Base) (supi : String) (key : SubscriberKey) :
    Serves (InMemory.call (J := J) base) base.milenage supi key (Known supi key) where
  next := by
    intro g n h
    simp only [InMemory.call, InMemory.nextSqn, h.1, h.2, Option.isSome_some, if_true]
    exact ⟨trivial, h.setSqn _⟩
  resync := by
    intro g n rand auts sqnMs h hverified
    simp only [InMemory.call, InMemory.resyncSqn, h.1, Option.bind_some, hverified]
    exact ⟨trivial, h.setSqn sqnMs⟩
  other := by
    intro g n c hc h
    have hother : ∀ {supi' : String}, decide (supi' = supi) = false → supi ≠ supi' :=
      fun h heq => of_decide_eq_false h heq.symm
    cases c with
    | provision supi' key' nonce => exact h.provision (hother hc) key'
    | provisionHex supi' k opc amf nonce =>
      simp only [InMemory.call]
      split
      · exact h.provision (hother hc) _
      · exact h
    | removeSubscriber supi' => exact h.remove (hother hc)
    | nextSqn supi' =>
      simp only [InMemory.call, InMemory.nextSqn]
      split
      · split
        · exact h.setOther (hother hc) _
        · exact h
      · exact h
    | resyncSqn supi' rand auts =>
      simp only [InMemory.call, InMemory.resyncSqn]
      split
      · exact h.setOther (hother hc) _
      · exact h
    | _ => exact h

/-- What a database mirrors is served as from memory. -/
theorem serves_redb (env : Setting J) (haead : env.aead.Correct) (hcodec : env.codec.RoundTrips)
    (supi : String) (key : SubscriberKey) :
    Serves (Redb.call env) env.base.milenage supi key
      fun db n => ∃ g, Mirrors env g db ∧ Known supi key g n where
  next := by
    rintro db n ⟨g, hg, hknown⟩
    obtain ⟨halike, hmirrors⟩ := simulates env haead hcodec g db (.nextSqn supi) hg
    obtain ⟨hanswer, hnext⟩ := (serves_inMemory env.base supi key).next hknown
    rw [hanswer] at halike
    exact ⟨Eq.symm halike, _, hmirrors, hnext⟩
  resync := by
    rintro db n rand auts sqnMs ⟨g, hg, hknown⟩ hverified
    obtain ⟨halike, hmirrors⟩ := simulates env haead hcodec g db (.resyncSqn supi rand auts) hg
    obtain ⟨hanswer, hnext⟩ := (serves_inMemory env.base supi key).resync hknown hverified
    rw [hanswer] at halike
    exact ⟨Eq.symm halike, _, hmirrors, hnext⟩
  other := by
    rintro db n c hc ⟨g, hg, hknown⟩
    exact ⟨_, (simulates env haead hcodec g db c hg).2,
      (serves_inMemory env.base supi key).other hc hknown⟩

/-- **Freshness.** In both stores, from its provisioning on, the numbers issued for a subscriber
increase exactly when none is counted on from one that is behind the last, or from the last there is. -/
theorem fresh_iff (env : Setting J) (haead : env.aead.Correct) (hcodec : env.codec.RoundTrips)
    (calls : List (Call J)) (supi : String) (key : SubscriberKey) (nonce : Octets 12) (sqnMs : Sqn)
    (es : List (Event J)) :
    let history := calls ++ [.provision supi key nonce]
    let inMemory := step (InMemory.call env.base) env.base.milenage supi key
    let redb := step (Redb.call env) env.base.milenage supi key
    let g := start (Runs.after (InMemory.call env.base) .new history) sqnMs
    let db := start (Runs.after (Redb.call env) .create history) sqnMs
    (Increasing (Runs.run inMemory g es) ↔ Runs.Along inMemory Heeds g es) ∧
      (Increasing (Runs.run redb db es) ↔ Runs.Along redb Heeds db es) := by
  intro history inMemory redb g db
  have hknown : Known supi key (Runs.after (InMemory.call env.base) .new history)
      (Octets.zero 6) := by
    rw [Runs.after_append]
    exact known_provision _ supi key
  have hmirrors := (simulates env haead hcodec).after history Mirrors.empty
  exact ⟨fresh_of_serves (serves_inMemory env.base supi key) hknown sqnMs es,
    fresh_of_serves (serves_redb env haead hcodec supi key) ⟨_, hmirrors, hknown⟩ sqnMs es⟩

/-- The world of a new subscriber, with a USIM that has the number zero. -/
def newcomer (store : σ) (call : σ → Call Bool → Answer Bool × σ) : World σ :=
  start (Runs.after call store ([] ++ [.provision "imsi-1" sampleKey (Octets.zero 12)])) (Octets.zero 6)

def sampleStep (call : σ → Call Bool → Answer Bool × σ) : World σ → Event Bool → World σ :=
  step call booleans.base.milenage "imsi-1" sampleKey

/-- The USIM is ahead of its second challenge, and its token is adopted before the third. -/
def caughtUp : List (Event Bool) :=
  [.next (Octets.zero 16), .elsewhere ⟨[0, 0, 0, 0, 0, 5], rfl⟩, .next (Octets.zero 16), .receive 0,
    .deliver 0, .next (Octets.zero 16)]

theorem increasing_caughtUp :
    Increasing (Runs.run (sampleStep (InMemory.call booleans.base))
        (newcomer .new (InMemory.call booleans.base)) caughtUp) ∧
      Increasing (Runs.run (sampleStep (Redb.call booleans))
        (newcomer .create (Redb.call booleans)) caughtUp) :=
  have hfresh := fresh_iff booleans correct_booleans roundTrips_booleans [] "imsi-1" sampleKey
    (Octets.zero 12) (Octets.zero 6) caughtUp
  ⟨hfresh.1.mpr (by decide), hfresh.2.mpr (by decide)⟩

/-- A challenge is replayed to the USIM, and the token that answers the replay comes when the USIM has
met the next challenge. -/
def replayed : List (Event Bool) :=
  [.next (Octets.zero 16), .receive 0, .receive 0, .next (Octets.zero 16), .receive 0, .deliver 0,
    .next (Octets.zero 16)]

/-- The number of the USIM is issued again. -/
theorem reissued_replayed :
    let g := Runs.run (sampleStep (InMemory.call booleans.base))
      (newcomer .new (InMemory.call booleans.base)) replayed
    let db := Runs.run (sampleStep (Redb.call booleans)) (newcomer .create (Redb.call booleans)) replayed
    (g.sqnMs.val, g.issued.map fun c => Octets.value c.sqn.val) = ([0, 0, 0, 0, 0, 2], [2, 2, 1]) ∧
      (db.sqnMs.val, db.issued.map fun c => Octets.value c.sqn.val) =
        ([0, 0, 0, 0, 0, 2], [2, 2, 1]) ∧
      ¬ Increasing g ∧ ¬ Increasing db := by
  refine ⟨rfl, rfl, fun h => ?_, fun h => ?_⟩
  · exact absurd ((List.pairwise_cons.mp h).1 _ List.mem_cons_self) (by decide)
  · exact absurd ((List.pairwise_cons.mp h).1 _ List.mem_cons_self) (by decide)

end Radian.Subscribers.Freshness
