import Mathlib.Logic.Function.Basic
import Radian.Keyed.Basic
import Radian.Runs.Basic

/-!
# Transactions on an N4 association

Requests of an SMF to one UPF, and the reader task that wakes the transaction a response belongs to.

- `N4Peer` — the sequence counter, the pending map and the transactions so far.
- `Correlates` — a response wakes the transaction that sent its request, or nobody.
- `correlates_iff` — it does exactly when the number has not outgrown the 24 bits of the wire and no
  other transaction is registered under it.
- `correlates_of_few` — in particular among the first `2 ^ 24 - 1` transactions.
-/

namespace Radian.Smf

/-! ### The association -/

/-- Where a transaction stands: its number is drawn, it waits on its channel, the channel has brought it
the response to a request, or it has given up. -/
inductive TxStatus where
  | drawn
  | waiting
  | answered (request : Nat)
  | failed
  deriving DecidableEq, Repr

/-- A transaction: its sequence number, whether its request has gone out, and where it stands. -/
structure Tx where
  seq : BitVec 32
  sent : Bool
  status : TxStatus
  deriving DecidableEq, Repr

/-- One association.  `txs` are the transactions in the order in which they drew their numbers, `drawn`
of them so far. -/
structure N4Peer where
  seq : BitVec 32
  pending : Keyed.Map (BitVec 32) Nat
  txs : Nat → Option Tx
  drawn : Nat

/-- The number in the header of a request, as the reader gets it back. -/
def wireSeq (seq : BitVec 32) : BitVec 32 := (seq.setWidth 24).setWidth 32

/-- What may come next on an association.  A response names the request it answers; it may come late,
again or never. -/
inductive TransactEvent where
  | nextSeq
  | insert (n : Nat)
  | send (n : Nat) (ok : Bool)
  | response (request : Nat)
  | expire (n : Nat)
  deriving DecidableEq, Repr

namespace N4Peer

def connect : N4Peer := { seq := 1, pending := ∅, txs := fun _ => none, drawn := 0 }

/-- A transaction draws its number. -/
def nextSeq (p : N4Peer) : N4Peer :=
  { p with
    seq := p.seq + 1
    txs := Function.update p.txs p.drawn (some { seq := p.seq, sent := false, status := .drawn })
    drawn := p.drawn + 1 }

/-- A transaction registers its channel, in place of any under the same number. -/
def insert (p : N4Peer) (n : Nat) : N4Peer :=
  match p.txs n with
  | some tx =>
      if tx.status = .drawn then
        { p with
          pending := p.pending.insert tx.seq n
          txs := Function.update p.txs n (some { tx with status := .waiting }) }
      else p
  | none => p

/-- A transaction gives up and withdraws what is pending under its number. -/
def fail (p : N4Peer) (n : Nat) (tx : Tx) : N4Peer :=
  { p with
    pending := p.pending.erase tx.seq
    txs := Function.update p.txs n (some { tx with status := .failed }) }

/-- The request goes out, or the socket refuses it. -/
def send (p : N4Peer) (n : Nat) (ok : Bool) : N4Peer :=
  match p.txs n with
  | some tx =>
      if tx.status = .drawn || tx.status = .failed || tx.sent then p
      else if ok then { p with txs := Function.update p.txs n (some { tx with sent := true }) }
      else p.fail n tx
  | none => p

/-- The two seconds are over, or the channel was dropped. -/
def expire (p : N4Peer) (n : Nat) : N4Peer :=
  match p.txs n with
  | some tx => if tx.status = .waiting && tx.sent then p.fail n tx else p
  | none => p

/-- The transaction that the reader finds for the response to a request. -/
def wakes (p : N4Peer) (request : Nat) : Option Nat :=
  ((p.txs request).filter fun tx => tx.sent).bind fun tx => p.pending.lookup (wireSeq tx.seq)

/-- The reader has a response. -/
def response (p : N4Peer) (request : Nat) : N4Peer :=
  match (p.txs request).filter fun tx => tx.sent with
  | some tx =>
      match p.pending.lookup (wireSeq tx.seq) with
      | some n =>
          { p with
            pending := p.pending.erase (wireSeq tx.seq)
            txs := Function.update p.txs n
              ((p.txs n).map fun tx => { tx with status := .answered request }) }
      | none => p
  | none => p

def step (p : N4Peer) : TransactEvent → N4Peer
  | .nextSeq => p.nextSeq
  | .insert n => p.insert n
  | .send n ok => p.send n ok
  | .response request => p.response request
  | .expire n => p.expire n

/-! ### Correlation -/

/-- The request has gone out and the transaction waits for its response. -/
def Outstanding (p : N4Peer) (n : Nat) : Prop :=
  ∃ tx, p.txs n = some tx ∧ tx.sent = true ∧ tx.status = .waiting

/-- The transaction's channel is in the pending map. -/
def Registered (p : N4Peer) (n : Nat) : Prop :=
  ∃ tx, p.txs n = some tx ∧ p.pending.lookup tx.seq = some n

/-- The response to a request that went out wakes the transaction that sent it, if it still waits, and
nobody else. -/
def Correlates (p : N4Peer) : TransactEvent → Prop
  | .response request =>
      ∀ n, p.wakes request = some n ↔ n = request ∧ p.Outstanding request
  | _ => True

/-- A response comes to a transaction whose number fits the wire and whose channel is in the map, or to
one that has stopped waiting and whose number on the wire nobody in the map has. -/
def Clear (p : N4Peer) : TransactEvent → Prop
  | .response request =>
      ∀ tx, p.txs request = some tx → tx.sent = true →
        (tx.status = .waiting → tx.seq.toNat < 2 ^ 24 ∧ p.Registered request) ∧
        (tx.status ≠ .waiting →
          ∀ n other, p.Registered n → p.txs n = some other → other.seq ≠ wireSeq tx.seq)
  | _ => True

/-- What is in the map waits under its number. -/
structure Sound (p : N4Peer) : Prop where
  fresh : ∀ n, p.drawn ≤ n → p.txs n = none
  pending : ∀ seq n, p.pending.lookup seq = some n →
    ∃ tx, p.txs n = some tx ∧ tx.seq = seq ∧ tx.status = .waiting

namespace Sound

variable {p : N4Peer}

theorem connect : Sound connect := by
  constructor
  · exact fun _ _ => rfl
  · intro seq n h
    exact absurd (h.symm.trans (AList.lookup_empty seq)) (by simp)

theorem drawn_of_some (h : p.Sound) {n : Nat} {tx : Tx} (hn : p.txs n = some tx) : n < p.drawn := by
  by_contra hle
  rw [h.fresh n (by omega)] at hn
  exact absurd hn (by simp)

/-- One transaction's record changes, and whoever waits in the map is that transaction or waited there
before. -/
theorem of_update (h : p.Sound) {p' : N4Peer} {n : Nat} {tx tx' : Tx} (htx : p.txs n = some tx)
    (htxs : p'.txs = Function.update p.txs n (some tx')) (hdrawn : p'.drawn = p.drawn)
    (hpending : ∀ seq m, p'.pending.lookup seq = some m →
      m = n ∧ tx'.seq = seq ∧ tx'.status = .waiting ∨ m ≠ n ∧ p.pending.lookup seq = some m) :
    p'.Sound := by
  constructor
  · intro m hm
    have hlt := h.drawn_of_some htx
    rw [htxs, Function.update_of_ne (by omega)]
    exact h.fresh m (by omega)
  · intro seq m hm
    rw [htxs]
    rcases hpending seq m hm with ⟨rfl, hseq, hwaiting⟩ | ⟨hne, hold⟩
    · exact ⟨tx', Function.update_self _ _ _, hseq, hwaiting⟩
    · obtain ⟨other, hother, hseq, hwaiting⟩ := h.pending seq m hold
      exact ⟨other, (Function.update_of_ne hne _ _).trans hother, hseq, hwaiting⟩

/-- Who waits under another number is another transaction. -/
theorem ne_of_seq (h : p.Sound) {n m : Nat} {tx : Tx} {seq : BitVec 32} (htx : p.txs n = some tx)
    (hm : p.pending.lookup seq = some m) (hother : seq ≠ tx.seq) : m ≠ n := by
  rintro rfl
  obtain ⟨tx', htx', hseq, -⟩ := h.pending seq m hm
  rw [Option.mem_unique htx htx'] at hother
  exact hother hseq.symm

theorem nextSeq (h : p.Sound) : p.nextSeq.Sound := by
  constructor
  · intro n hn
    simp only [N4Peer.nextSeq] at hn ⊢
    rw [Function.update_of_ne (by omega)]
    exact h.fresh n (by omega)
  · intro seq n hpending
    obtain ⟨tx, htx, hseq⟩ := h.pending seq n hpending
    have hlt := h.drawn_of_some htx
    refine ⟨tx, ?_, hseq⟩
    simp only [N4Peer.nextSeq]
    rw [Function.update_of_ne (by omega)]
    exact htx

theorem insert (h : p.Sound) (n : Nat) : (p.insert n).Sound := by
  unfold N4Peer.insert
  split
  · rename_i tx htx
    split
    · rename_i hdrawn
      refine h.of_update htx rfl rfl fun seq m hm => ?_
      obtain ⟨hsame, rfl⟩ | ⟨-, hpending⟩ := Keyed.Map.of_lookup_insert hm
      · exact .inl ⟨rfl, hsame.symm, rfl⟩
      · right
        refine ⟨?_, hpending⟩
        rintro rfl
        obtain ⟨other, hother, -, hwaiting⟩ := h.pending seq m hpending
        rw [Option.mem_unique htx hother, hwaiting] at hdrawn
        exact absurd hdrawn (by simp)
    · exact h
  · exact h

/-- A transaction whose entry is taken out of the map. -/
theorem erase (h : p.Sound) {p' : N4Peer} {n : Nat} {tx tx' : Tx} (htx : p.txs n = some tx)
    (htxs : p'.txs = Function.update p.txs n (some tx')) (hdrawn : p'.drawn = p.drawn)
    (hpending : p'.pending = p.pending.erase tx.seq) : p'.Sound := by
  refine h.of_update htx htxs hdrawn fun seq m hm => ?_
  rw [hpending] at hm
  obtain ⟨hother, hm⟩ := Keyed.Map.of_lookup_erase hm
  exact .inr ⟨h.ne_of_seq htx hm hother, hm⟩

theorem fail (h : p.Sound) {n : Nat} {tx : Tx} (htx : p.txs n = some tx) : (p.fail n tx).Sound :=
  h.erase htx rfl rfl rfl

theorem send (h : p.Sound) (n : Nat) (ok : Bool) : (p.send n ok).Sound := by
  unfold N4Peer.send
  split
  · rename_i tx htx
    split
    · exact h
    · split
      · refine h.of_update htx rfl rfl fun seq m hpending => ?_
        by_cases hsame : m = n
        · subst hsame
          obtain ⟨other, hother, hseq, hwaiting⟩ := h.pending seq m hpending
          obtain rfl := Option.mem_unique htx hother
          exact .inl ⟨rfl, hseq, hwaiting⟩
        · exact .inr ⟨hsame, hpending⟩
      · exact h.fail htx
  · exact h

theorem expire (h : p.Sound) (n : Nat) : (p.expire n).Sound := by
  unfold N4Peer.expire
  split
  · rename_i tx htx
    split
    · exact h.fail htx
    · exact h
  · exact h

theorem response (h : p.Sound) (request : Nat) : (p.response request).Sound := by
  unfold N4Peer.response
  split
  · rename_i tx htx
    split
    · rename_i n hfound
      obtain ⟨woken, hwoken, hnumber, -⟩ := h.pending _ _ hfound
      rw [hwoken, Option.map_some]
      exact h.erase hwoken rfl rfl (by rw [hnumber])
    · exact h
  · exact h

theorem step (h : p.Sound) (e : TransactEvent) : (p.step e).Sound := by
  cases e with
  | nextSeq => exact h.nextSeq
  | insert n => exact h.insert n
  | send n ok => exact h.send n ok
  | response request => exact h.response request
  | expire n => exact h.expire n

end Sound

/-! ### When responses find their transactions -/

theorem wireSeq_eq_iff (seq : BitVec 32) : wireSeq seq = seq ↔ seq.toNat < 2 ^ 24 := by
  have hlt := seq.isLt
  rw [← BitVec.toNat_inj, wireSeq, BitVec.toNat_setWidth, BitVec.toNat_setWidth]
  omega

section Response

variable {p : N4Peer} {request : Nat} {tx : Tx}

theorem outstanding_iff (htx : p.txs request = some tx) (hsent : tx.sent = true) :
    p.Outstanding request ↔ tx.status = .waiting := by
  constructor
  · rintro ⟨other, hother, -, hwaiting⟩
    rwa [Option.mem_unique htx hother]
  · exact fun hwaiting => ⟨tx, htx, hsent, hwaiting⟩

theorem wakes_sent (htx : p.txs request = some tx) (hsent : tx.sent = true) :
    p.wakes request = p.pending.lookup (wireSeq tx.seq) := by
  simp [wakes, htx, Option.filter_some, hsent]

/-- A response that is waited for. -/
theorem correlates_waiting_iff (h : p.Sound) (htx : p.txs request = some tx) (hsent : tx.sent = true)
    (hwaiting : tx.status = .waiting) :
    p.Correlates (.response request) ↔ tx.seq.toNat < 2 ^ 24 ∧ p.Registered request := by
  simp only [Correlates, wakes_sent htx hsent, outstanding_iff htx hsent, hwaiting, and_true]
  constructor
  · intro hfinds
    have hfound := (hfinds request).mpr rfl
    obtain ⟨other, hother, hseq, -⟩ := h.pending _ _ hfound
    obtain rfl := Option.mem_unique htx hother
    exact ⟨(wireSeq_eq_iff tx.seq).mp hseq.symm, tx, htx, hseq ▸ hfound⟩
  · rintro ⟨hshort, other, hother, hfound⟩ n
    obtain rfl := Option.mem_unique htx hother
    rw [(wireSeq_eq_iff tx.seq).mpr hshort, hfound, Option.some_inj, eq_comm]

/-- A response that nobody waits for any more. -/
theorem correlates_late_iff (h : p.Sound) (htx : p.txs request = some tx) (hsent : tx.sent = true)
    (hlate : tx.status ≠ .waiting) :
    p.Correlates (.response request) ↔
      ∀ n other, p.Registered n → p.txs n = some other → other.seq ≠ wireSeq tx.seq := by
  simp only [Correlates, wakes_sent htx hsent, outstanding_iff htx hsent, hlate, and_false, iff_false]
  constructor
  · rintro hnobody n other ⟨tx', htx', hfound⟩ hother hseq
    obtain rfl := Option.mem_unique hother htx'
    exact hnobody n (hseq ▸ hfound)
  · intro hclear n hfound
    obtain ⟨other, hother, hseq, -⟩ := h.pending _ _ hfound
    exact hclear n other ⟨other, hother, hseq ▸ hfound⟩ hother hseq

theorem correlates_response_iff (h : p.Sound) (request : Nat) :
    p.Correlates (.response request) ↔ p.Clear (.response request) := by
  by_cases hout : ∃ tx, p.txs request = some tx ∧ tx.sent = true
  · obtain ⟨tx, htx, hsent⟩ := hout
    have hclear : p.Clear (.response request) ↔
        (tx.status = .waiting → tx.seq.toNat < 2 ^ 24 ∧ p.Registered request) ∧
        (tx.status ≠ .waiting →
          ∀ n other, p.Registered n → p.txs n = some other → other.seq ≠ wireSeq tx.seq) := by
      constructor
      · exact fun hclear => hclear tx htx hsent
      · intro hclear other hother _
        rwa [← Option.mem_unique htx hother]
    rw [hclear]
    by_cases hwaiting : tx.status = .waiting
    · rw [correlates_waiting_iff h htx hsent hwaiting]
      exact ⟨fun hfits => ⟨fun _ => hfits, fun hlate => absurd hwaiting hlate⟩,
        fun hclear => hclear.1 hwaiting⟩
    · rw [correlates_late_iff h htx hsent hwaiting]
      exact ⟨fun hnobody => ⟨fun hwaits => absurd hwaits hwaiting, fun _ => hnobody⟩,
        fun hclear => hclear.2 hwaiting⟩
  · apply iff_of_true
    · intro n
      have hnobody : p.wakes request = none := by
        rw [wakes, Option.bind_eq_none_iff]
        intro tx htx
        obtain ⟨hsome, hsent⟩ := Option.filter_eq_some_iff.mp htx
        exact absurd ⟨tx, hsome, hsent⟩ hout
      rw [hnobody]
      refine iff_of_false (by simp) ?_
      rintro ⟨-, tx, htx, hsent, -⟩
      exact hout ⟨tx, htx, hsent⟩
    · intro tx htx hsent
      exact absurd ⟨tx, htx, hsent⟩ hout

end Response

theorem correlates_event_iff {p : N4Peer} (h : p.Sound) (e : TransactEvent) :
    p.Correlates e ↔ p.Clear e := by
  cases e with
  | response request => exact correlates_response_iff h request
  | _ => exact Iff.rfl

/-- Throughout a run each response finds its transaction, and no other, exactly when nothing stands in
its way. -/
theorem correlates_iff (es : List TransactEvent) :
    Runs.Along step Correlates connect es ↔ Runs.Along step Clear connect es :=
  Runs.along_congr (fun _ e h => h.step e) (fun _ e h => correlates_event_iff h e) Sound.connect

/-! ### The first transactions -/

/-- Numbers are drawn in order, and who waits is in the map. -/
structure InOrder (p : N4Peer) : Prop where
  sound : p.Sound
  counter : p.seq = .ofNat 32 (p.drawn + 1)
  numbers : ∀ n tx, p.txs n = some tx → tx.seq = .ofNat 32 (n + 1)
  registered : ∀ n tx, p.txs n = some tx → tx.status = .waiting → p.pending.lookup tx.seq = some n

namespace InOrder

variable {p : N4Peer}

theorem connect : InOrder connect := by
  refine ⟨.connect, rfl, ?_, ?_⟩
  · exact fun n tx htx => absurd htx (by simp [N4Peer.connect])
  · exact fun n tx htx => absurd htx (by simp [N4Peer.connect])

theorem seq_toNat (h : p.InOrder) (hfew : p.drawn < 2 ^ 24) {n : Nat} {tx : Tx}
    (htx : p.txs n = some tx) : tx.seq.toNat = n + 1 := by
  have hlt := h.sound.drawn_of_some htx
  rw [h.numbers n tx htx, BitVec.toNat_ofNat, Nat.mod_eq_of_lt (by omega)]

theorem seq_ne (h : p.InOrder) (hfew : p.drawn < 2 ^ 24) {n m : Nat} {tx other : Tx}
    (hne : m ≠ n) (htx : p.txs n = some tx) (hother : p.txs m = some other) :
    other.seq ≠ tx.seq := by
  intro hsame
  have hnumber := congrArg BitVec.toNat hsame
  rw [h.seq_toNat hfew htx, h.seq_toNat hfew hother] at hnumber
  omega

/-- One transaction's record changes, and not its number; what is pending under other numbers stays. -/
theorem of_update (h : p.InOrder) (hfew : p.drawn < 2 ^ 24) {n : Nat} {tx tx' : Tx}
    {pending : Keyed.Map (BitVec 32) Nat} (htx : p.txs n = some tx)
    (hsound : Sound { p with pending, txs := Function.update p.txs n (some tx') })
    (hseq : tx'.seq = tx.seq)
    (hothers : ∀ seq, seq ≠ tx.seq → pending.lookup seq = p.pending.lookup seq)
    (hown : tx'.status = .waiting → pending.lookup tx.seq = some n) :
    InOrder { p with pending, txs := Function.update p.txs n (some tx') } := by
  refine ⟨hsound, h.counter, ?_, ?_⟩
  · intro m other hm
    dsimp only at hm
    by_cases hsame : m = n
    · subst hsame
      rw [Function.update_self, Option.some_inj] at hm
      rw [← hm, hseq]
      exact h.numbers m tx htx
    · rw [Function.update_of_ne hsame] at hm
      exact h.numbers m other hm
  · intro m other hm hwaiting
    dsimp only at hm ⊢
    by_cases hsame : m = n
    · subst hsame
      rw [Function.update_self, Option.some_inj] at hm
      rw [← hm] at hwaiting ⊢
      rw [hseq]
      exact hown hwaiting
    · rw [Function.update_of_ne hsame] at hm
      rw [hothers other.seq (h.seq_ne hfew hsame htx hm)]
      exact h.registered m other hm hwaiting

theorem fail (h : p.InOrder) (hfew : p.drawn < 2 ^ 24) {n : Nat} {tx : Tx} (htx : p.txs n = some tx) :
    (p.fail n tx).InOrder := by
  refine h.of_update hfew htx (h.sound.fail htx) rfl ?_ ?_
  · intro seq hne
    rw [Keyed.Map.lookup_erase_eq, if_neg hne]
  · exact fun hwaiting => absurd hwaiting (by simp)

theorem nextSeq (h : p.InOrder) : p.nextSeq.InOrder := by
  refine ⟨h.sound.nextSeq, ?_, ?_, ?_⟩
  · simp only [N4Peer.nextSeq]
    rw [h.counter]
    exact (BitVec.ofNat_add (p.drawn + 1) 1).symm
  · intro n tx htx
    simp only [N4Peer.nextSeq] at htx
    by_cases hnew : n = p.drawn
    · subst hnew
      rw [Function.update_self] at htx
      rw [← Option.some_inj.mp htx]
      exact h.counter
    · exact h.numbers n tx ((Function.update_of_ne hnew _ _).symm.trans htx)
  · intro n tx htx hwaiting
    simp only [N4Peer.nextSeq] at htx
    by_cases hnew : n = p.drawn
    · subst hnew
      rw [Function.update_self] at htx
      rw [← Option.some_inj.mp htx] at hwaiting
      exact absurd hwaiting (by simp)
    · exact h.registered n tx ((Function.update_of_ne hnew _ _).symm.trans htx) hwaiting

theorem insert (h : p.InOrder) (hfew : p.drawn < 2 ^ 24) (n : Nat) : (p.insert n).InOrder := by
  have hsound := h.sound.insert n
  unfold N4Peer.insert at hsound ⊢
  split at hsound
  · rename_i tx htx
    split at hsound
    · rename_i hdrawn
      rw [if_pos hdrawn]
      refine h.of_update hfew htx hsound rfl ?_ ?_
      · intro seq hne
        rw [Keyed.Map.lookup_insert_eq, if_neg hne]
      · intro _
        rw [Keyed.Map.lookup_insert_eq, if_pos rfl]
    · rename_i hdrawn
      rw [if_neg hdrawn]
      exact h
  · exact h

theorem send (h : p.InOrder) (hfew : p.drawn < 2 ^ 24) (n : Nat) (ok : Bool) :
    (p.send n ok).InOrder := by
  have hsound := h.sound.send n ok
  unfold N4Peer.send at hsound ⊢
  split at hsound
  · rename_i tx htx
    split at hsound
    · rename_i hpast
      rw [if_pos hpast]
      exact h
    · rename_i hopen
      rw [if_neg hopen]
      cases ok with
      | true => exact h.of_update hfew htx hsound rfl (fun _ _ => rfl) (h.registered n tx htx)
      | false => exact h.fail hfew htx
  · exact h

theorem response (h : p.InOrder) (hfew : p.drawn < 2 ^ 24) (request : Nat) :
    (p.response request).InOrder := by
  have hsound := h.sound.response request
  unfold N4Peer.response at hsound ⊢
  split at hsound
  · rename_i tx htx
    split at hsound
    · rename_i n hfound
      obtain ⟨woken, hwoken, hnumber, -⟩ := h.sound.pending _ _ hfound
      rw [hwoken, Option.map_some] at hsound ⊢
      refine h.of_update hfew hwoken hsound rfl ?_ ?_
      · intro seq hne
        rw [Keyed.Map.lookup_erase_eq, if_neg fun hsame => hne (hsame.trans hnumber.symm)]
      · exact fun hwaiting => absurd hwaiting (by simp)
    · exact h
  · exact h

theorem expire (h : p.InOrder) (hfew : p.drawn < 2 ^ 24) (n : Nat) : (p.expire n).InOrder := by
  unfold N4Peer.expire
  split
  · rename_i tx htx
    split
    · exact h.fail hfew htx
    · exact h
  · exact h

theorem step (h : p.InOrder) (hfew : p.drawn < 2 ^ 24) (e : TransactEvent) : (p.step e).InOrder := by
  cases e with
  | nextSeq => exact h.nextSeq
  | insert n => exact h.insert hfew n
  | send n ok => exact h.send hfew n ok
  | response request => exact h.response hfew request
  | expire n => exact h.expire hfew n

/-- While no number has been used twice, nothing stands in a response's way. -/
theorem clear (h : p.InOrder) (hfew : p.drawn < 2 ^ 24) (e : TransactEvent) : p.Clear e := by
  cases e with
  | response request =>
    intro tx htx _
    have hlt := h.sound.drawn_of_some htx
    have hnumber := h.seq_toNat hfew htx
    have hshort : tx.seq.toNat < 2 ^ 24 := by omega
    refine ⟨fun hwaiting => ⟨hshort, tx, htx, h.registered request tx htx hwaiting⟩, ?_⟩
    intro hlate n other hregistered hother
    obtain ⟨other', hother', hfound⟩ := hregistered
    obtain rfl := Option.mem_unique hother hother'
    obtain ⟨waiter, hwaiter, -, hwaiting⟩ := h.sound.pending _ _ hfound
    obtain rfl := Option.mem_unique hother hwaiter
    have hne : n ≠ request := by
      rintro rfl
      exact hlate (Option.mem_unique htx hother ▸ hwaiting)
    rw [(wireSeq_eq_iff tx.seq).mpr hshort]
    exact h.seq_ne hfew hne htx hother
  | _ => trivial

end InOrder

theorem drawn_step (p : N4Peer) (e : TransactEvent) :
    (p.step e).drawn = p.drawn + if e = .nextSeq then 1 else 0 := by
  cases e with
  | nextSeq => rfl
  | insert n =>
    simp only [step, insert, reduceCtorEq, if_false, Nat.add_zero]
    split
    · split <;> rfl
    · rfl
  | send n ok =>
    simp only [step, send, reduceCtorEq, if_false, Nat.add_zero]
    split
    · split
      · rfl
      · split <;> rfl
    · rfl
  | response request =>
    simp only [step, response, reduceCtorEq, if_false, Nat.add_zero]
    split
    · split <;> rfl
    · rfl
  | expire n =>
    simp only [step, expire, reduceCtorEq, if_false, Nat.add_zero]
    split
    · split <;> rfl
    · rfl

theorem clear_of_few {p : N4Peer} {es : List TransactEvent} (h : p.InOrder)
    (hfew : p.drawn + es.count .nextSeq < 2 ^ 24) : Runs.Along step Clear p es := by
  induction es generalizing p with
  | nil => trivial
  | cons e es ih =>
    have hnow : p.drawn < 2 ^ 24 := by omega
    refine ⟨h.clear hnow e, ih (h.step hnow e) ?_⟩
    rw [drawn_step]
    rw [List.count_cons] at hfew
    simp only [beq_iff_eq] at hfew
    omega

/-- Before the numbers outgrow the wire, each response finds its transaction and no other. -/
theorem correlates_of_few {es : List TransactEvent} (hfew : es.count .nextSeq < 2 ^ 24) :
    Runs.Along step Correlates connect es :=
  (correlates_iff es).mpr (clear_of_few .connect (by rwa [connect, Nat.zero_add]))

/-! ### The first number beyond the wire -/

/-- Transaction `n` sends its request. -/
def request (n : Nat) : List TransactEvent := [.nextSeq, .insert n, .send n true]

/-- Requests and their responses, one after the other. -/
def rounds : Nat → List TransactEvent
  | 0 => []
  | n + 1 => rounds n ++ (request n ++ [.response n])

/-- `n` transactions are over. -/
structure Quiet (n : Nat) (p : N4Peer) : Prop where
  drawn : p.drawn = n
  counter : p.seq = .ofNat 32 (n + 1)
  idle : ∀ seq, p.pending.lookup seq = none

/-- One request is out. -/
structure Asking (n : Nat) (p : N4Peer) : Prop where
  drawn : p.drawn = n + 1
  counter : p.seq = .ofNat 32 (n + 2)
  tx : p.txs n = some { seq := .ofNat 32 (n + 1), sent := true, status := .waiting }
  pending : ∀ seq, p.pending.lookup seq = if seq = .ofNat 32 (n + 1) then some n else none

theorem asking_request {p : N4Peer} {n : Nat} (h : Quiet n p) :
    Asking n (Runs.run step p (request n)) := by
  have hdrawn := h.drawn
  subst hdrawn
  simp only [request, Runs.run_cons, Runs.run_nil, step, nextSeq, insert, send,
    Function.update_self, if_true, Bool.or_self, Bool.false_eq_true, if_false, reduceCtorEq,
    decide_false]
  constructor
  · rfl
  · simp only [h.counter]
    exact (BitVec.ofNat_add (p.drawn + 1) 1).symm
  · simp only [h.counter, Function.update_self]
  · intro seq
    simp only [Keyed.Map.lookup_insert_eq, h.counter, h.idle]

theorem quiet_rounds (n : Nat) (hfew : n < 2 ^ 24) : Quiet n (Runs.run step connect (rounds n)) := by
  induction n with
  | zero => exact ⟨rfl, rfl, AList.lookup_empty⟩
  | succ n ih =>
    have hasking := asking_request (ih (by omega))
    rw [rounds, Runs.run_append, Runs.run_append]
    generalize Runs.run step (Runs.run step connect (rounds n)) (request n) = p at hasking ⊢
    have hshort : wireSeq (.ofNat 32 (n + 1)) = .ofNat 32 (n + 1) := by
      rw [wireSeq_eq_iff, BitVec.toNat_ofNat]
      omega
    simp only [Runs.run_cons, Runs.run_nil, step, response, hasking.tx, Option.filter_some, if_true,
      hshort, hasking.pending, Option.map_some]
    refine ⟨hasking.drawn, hasking.counter, ?_⟩
    intro seq
    simp only [Keyed.Map.lookup_erase_eq, hasking.pending]
    split <;> rfl

/-- A number whose low 24 bits are zero is not found. -/
theorem asking_beyond {p : N4Peer} {n : Nat} (hn : n + 1 = 2 ^ 24) (h : Asking n p) :
    p.Outstanding n ∧ p.wakes n = none := by
  refine ⟨⟨_, h.tx, rfl, rfl⟩, ?_⟩
  have hlost : wireSeq (.ofNat 32 (2 ^ 24)) ≠ .ofNat 32 (2 ^ 24) := by decide
  rw [wakes_sent h.tx rfl, h.pending, hn, if_neg hlost]

/-- Request `n`, after all the earlier ones have their responses. -/
def beyond (n : Nat) : List TransactEvent := rounds n ++ request n

/-- The first request whose number the wire does not hold is waited for in vain. -/
theorem lost_beyond {n : Nat} (hn : n + 1 = 2 ^ 24) :
    (Runs.run step connect (beyond n)).Outstanding n ∧
      (Runs.run step connect (beyond n)).wakes n = none ∧
      ¬ Runs.Along step Correlates connect (beyond n ++ [.response n]) := by
  have hasking := asking_request (quiet_rounds n (by omega))
  rw [← Runs.run_append, ← beyond] at hasking
  obtain ⟨hout, hnobody⟩ := asking_beyond hn hasking
  refine ⟨hout, hnobody, ?_⟩
  intro halong
  obtain ⟨-, hlast, -⟩ := Runs.along_append.mp halong
  have hfound := (hlast n).mpr ⟨rfl, hout⟩
  exact absurd (hnobody.symm.trans hfound) (by simp)

/-- The request after `2 ^ 24 - 1` answered ones: its response wakes nobody. -/
theorem not_correlates_beyond :
    (Runs.run step connect (beyond (2 ^ 24 - 1))).Outstanding (2 ^ 24 - 1) ∧
      (Runs.run step connect (beyond (2 ^ 24 - 1))).wakes (2 ^ 24 - 1) = none ∧
      ¬ Runs.Along step Correlates connect
          (beyond (2 ^ 24 - 1) ++ [.response (2 ^ 24 - 1)]) :=
  lost_beyond (by omega)

end N4Peer

end Radian.Smf
