import Mathlib.Data.List.Basic
import Mathlib.Data.List.Chain
import Mathlib.Data.List.Infix
import Mathlib.Data.List.Nodup
import Mathlib.Data.List.Perm.Subperm
import Mathlib.Logic.Relation
import Mathlib.Tactic.Common

/-!
# Breadth-first search

A graph is given by the neighbours of each node, in an order.  Breadth-first search looks for a node
that meets a goal, and the order decides which one it finds and on which walk.

- `IsWalk`, `upTo` — walks from a source, and all of them in the order of their lengths and then of
  the neighbours.
- `firsts` — of several walks to one node, the first.
- `search` — the search, with the walk to each node of its queue.
- `search_settles` — with a step for each node the search ends, with the first walk to a goal of all
  the walks there are.
- `First.isWalk`, `First.minimal`, `First.nodup` — what is known of that walk.
-/

namespace Bfs

variable {α : Type}

/-- A node, and the nodes behind it back to the source. -/
abbrev Walk (α : Type) : Type := α × List α

/-! ### Walks -/

/-- From `source` along neighbours. -/
def IsWalk (adj : α → List α) (source : α) : α → List α → Prop
  | v, [] => v = source
  | v, u :: behind => v ∈ adj u ∧ IsWalk adj source u behind

/-- One step further, to each neighbour in order. -/
def extend (adj : α → List α) (w : Walk α) : List (Walk α) :=
  (adj w.1).map fun v => (v, w.1 :: w.2)

/-- The walks of a length, in the order of the neighbours on the way. -/
def walks (adj : α → List α) (source : α) : Nat → List (Walk α)
  | 0 => [(source, [])]
  | k + 1 => (walks adj source k).flatMap (extend adj)

/-- The walks of up to `k` steps, the shorter ones first. -/
def upTo (adj : α → List α) (source : α) (k : Nat) : List (Walk α) :=
  (List.range (k + 1)).flatMap (walks adj source)

/-- The first walk to a goal, by length and then by the order of the neighbours. -/
def First (adj : α → List α) (source : α) (goal : α → Bool) (w : Walk α) : Prop :=
  ∃ k, (upTo adj source k).find? (fun w => goal w.1) = some w

section Walks

variable {adj : α → List α} {source : α} {goal : α → Bool} {w : Walk α} {k : Nat}

@[simp] theorem mem_extend {v : α} {behind : List α} :
    (v, behind) ∈ extend adj w ↔ v ∈ adj w.1 ∧ behind = w.1 :: w.2 := by
  simp [extend, eq_comm]

theorem mem_walks_iff : w ∈ walks adj source k ↔ IsWalk adj source w.1 w.2 ∧ w.2.length = k := by
  induction k generalizing w with
  | zero =>
    obtain ⟨v, behind⟩ := w
    cases behind <;> simp [walks, IsWalk]
  | succ k ih =>
    obtain ⟨v, behind⟩ := w
    rw [walks, List.mem_flatMap]
    constructor
    · rintro ⟨u, hu, hmem⟩
      obtain ⟨hadj, rfl⟩ := mem_extend.mp hmem
      obtain ⟨hwalk, hlen⟩ := ih.mp hu
      exact ⟨⟨hadj, hwalk⟩, by rw [List.length_cons, hlen]⟩
    · rintro ⟨hwalk, hlen⟩
      cases behind with
      | nil => cases hlen
      | cons u behind =>
        refine ⟨(u, behind), ih.mpr ⟨hwalk.2, Nat.succ.inj hlen⟩, ?_⟩
        exact mem_extend.mpr ⟨hwalk.1, rfl⟩

theorem mem_upTo_iff : w ∈ upTo adj source k ↔ IsWalk adj source w.1 w.2 ∧ w.2.length ≤ k := by
  simp only [upTo, List.mem_flatMap, List.mem_range, mem_walks_iff]
  constructor
  · rintro ⟨j, hj, hwalk, hlen⟩
    exact ⟨hwalk, by omega⟩
  · rintro ⟨hwalk, hlen⟩
    exact ⟨w.2.length, by omega, hwalk, rfl⟩

theorem upTo_succ (adj : α → List α) (source : α) (k : Nat) :
    upTo adj source (k + 1) = (source, []) :: (upTo adj source k).flatMap (extend adj) := by
  rw [upTo, List.range_succ_eq_map, List.flatMap_cons, List.flatMap_map, upTo, List.flatMap_assoc]
  rfl

theorem upTo_mono {j : Nat} (h : j ≤ k) : upTo adj source j <+: upTo adj source k := by
  obtain ⟨d, rfl⟩ := Nat.exists_eq_add_of_le h
  have hrange : List.range (j + d + 1) = List.range (j + 1) ++ (List.range d).map (j + 1 + ·) := by
    rw [← List.range_add, Nat.add_right_comm]
  rw [upTo, upTo, hrange, List.flatMap_append]
  exact List.prefix_append _ _

/-- What lies behind a node of a walk is a walk. -/
theorem IsWalk.behind {x v : α} {before behind : List α}
    (h : IsWalk adj source x (before ++ v :: behind)) : IsWalk adj source v behind := by
  induction before generalizing x with
  | nil => exact h.2
  | cons u before ih => exact ih h.2

/-- A walk goes on as well from another walk to one of its nodes. -/
theorem IsWalk.replace {x v : α} {before behind behind' : List α}
    (h : IsWalk adj source x (before ++ v :: behind)) (h' : IsWalk adj source v behind') :
    IsWalk adj source x (before ++ v :: behind') := by
  induction before generalizing x with
  | nil => exact ⟨h.1, h'⟩
  | cons u before ih => exact ⟨h.1, ih h.2⟩

/-- A walk read from the source on. -/
theorem isWalk_iff {v : α} {behind : List α} :
    IsWalk adj source v behind ↔
      List.IsChain (fun x y => y ∈ adj x) (v :: behind).reverse ∧
        (v :: behind).getLast? = some source := by
  induction behind generalizing v with
  | nil => simp [IsWalk]
  | cons u behind ih =>
    rw [IsWalk, ih, List.reverse_cons (a := v), List.isChain_append, List.getLast?_cons_cons,
      List.getLast?_reverse]
    simp
    tauto

/-- The nodes that walks lead to are the nodes that can be reached. -/
theorem exists_isWalk_iff {v : α} :
    (∃ behind, IsWalk adj source v behind) ↔
      Relation.ReflTransGen (fun x y => y ∈ adj x) source v := by
  constructor
  · rintro ⟨behind, hwalk⟩
    induction behind generalizing v with
    | nil => exact hwalk ▸ .refl
    | cons u behind ih => exact (ih hwalk.2).tail hwalk.1
  · intro hreach
    induction hreach with
    | refl => exact ⟨[], rfl⟩
    | tail _ hadj ih =>
      obtain ⟨behind, hwalk⟩ := ih
      exact ⟨_ :: behind, hadj, hwalk⟩

/-- A list with a repetition. -/
theorem exists_repeat_of_not_nodup {l : List α} (h : ¬ l.Nodup) :
    ∃ v before between behind, l = before ++ v :: (between ++ v :: behind) := by
  induction l with
  | nil => exact absurd List.nodup_nil h
  | cons x l ih =>
    by_cases hx : x ∈ l
    · obtain ⟨between, behind, rfl⟩ := List.append_of_mem hx
      exact ⟨x, [], between, behind, rfl⟩
    · have hl : ¬ l.Nodup := fun hl => h (List.nodup_cons.mpr ⟨hx, hl⟩)
      obtain ⟨v, before, between, behind, rfl⟩ := ih hl
      exact ⟨v, x :: before, between, behind, rfl⟩

/-! ### The first walk to a goal -/

theorem First.isWalk (h : First adj source goal w) : IsWalk adj source w.1 w.2 := by
  obtain ⟨k, hfind⟩ := h
  exact (mem_upTo_iff.mp (List.mem_of_find?_eq_some hfind)).1

theorem First.meets (h : First adj source goal w) : goal w.1 = true := by
  obtain ⟨k, hfind⟩ := h
  have hmeets := List.find?_some hfind
  exact hmeets

/-- No walk to a goal is shorter. -/
theorem First.minimal (h : First adj source goal w) {v : α} {behind : List α}
    (hwalk : IsWalk adj source v behind) (hgoal : goal v = true) : w.2.length ≤ behind.length := by
  obtain ⟨k, hfind⟩ := h
  by_contra hlt
  have hlen : w.2.length ≤ k := (mem_upTo_iff.mp (List.mem_of_find?_eq_some hfind)).2
  -- a shorter walk stands before all the longer ones
  have hmem : (v, behind) ∈ upTo adj source behind.length := mem_upTo_iff.mpr ⟨hwalk, Nat.le_refl _⟩
  obtain ⟨w', hw'⟩ := Option.isSome_iff_exists.mp
      (List.find?_isSome (p := fun w => goal w.1) |>.mpr ⟨_, hmem, hgoal⟩)
  have heq := (upTo_mono (by omega : behind.length ≤ k)).find?_eq_some hw'
  rw [hfind, Option.some_inj] at heq
  subst heq
  exact hlt (mem_upTo_iff.mp (List.mem_of_find?_eq_some hw')).2

/-- There is one at most. -/
theorem First.unique {w' : Walk α} (h : First adj source goal w) (h' : First adj source goal w') :
    w = w' := by
  obtain ⟨k, hk⟩ := h
  obtain ⟨k', hk'⟩ := h'
  have hle : upTo adj source k <+: upTo adj source (max k k') := upTo_mono (Nat.le_max_left k k')
  have hlong := hle.find?_eq_some hk
  rw [(upTo_mono (Nat.le_max_right k k')).find?_eq_some hk', Option.some_inj] at hlong
  exact hlong.symm

/-- It visits no node twice. -/
theorem First.nodup (h : First adj source goal w) : (w.1 :: w.2).Nodup := by
  by_contra hrepeat
  obtain ⟨v, before, between, behind, heq⟩ := exists_repeat_of_not_nodup hrepeat
  cases before with
  | nil =>
    -- the goal stands behind itself
    obtain ⟨hv, hbehind⟩ := List.cons.inj heq
    have hwalk := h.isWalk
    rw [hbehind] at hwalk
    have hle := h.minimal hwalk.behind (hv ▸ h.meets)
    rw [hbehind, List.length_append, List.length_cons] at hle
    omega
  | cons u before =>
    obtain ⟨-, hbehind⟩ := List.cons.inj heq
    have hwalk := h.isWalk
    rw [hbehind] at hwalk
    have hle := h.minimal (hwalk.replace hwalk.behind.behind) h.meets
    rw [hbehind] at hle
    simp only [List.append_eq, List.length_append, List.length_cons] at hle
    omega

end Walks

/-! ### The first walk to each node -/

section Firsts

variable [DecidableEq α] {adj : α → List α} {source : α} {goal : α → Bool}

/-- The walks to a node that neither `seen` nor an earlier walk has. -/
def firsts (seen : List α) : List (Walk α) → List (Walk α)
  | [] => []
  | w :: ws => if w.1 ∈ seen then firsts seen ws else w :: firsts (w.1 :: seen) ws

/-- Where walks lead. -/
abbrev ends (ws : List (Walk α)) : List α := ws.map Prod.fst

omit [DecidableEq α] in
theorem mem_ends_cons {v : α} {w : Walk α} {ws : List (Walk α)} :
    v ∈ ends (w :: ws) ↔ v = w.1 ∨ v ∈ ends ws := List.mem_cons

omit [DecidableEq α] in
theorem ends_extend (adj : α → List α) (w : Walk α) : ends (extend adj w) = adj w.1 := by
  rw [ends, extend, List.map_map]
  exact List.map_id _

theorem firsts_congr {seen seen' : List α} (h : ∀ v, v ∈ seen ↔ v ∈ seen') (ws : List (Walk α)) :
    firsts seen ws = firsts seen' ws := by
  induction ws generalizing seen seen' with
  | nil => rfl
  | cons w ws ih =>
    have hcons : firsts (w.1 :: seen) ws = firsts (w.1 :: seen') ws :=
      ih fun v => by rw [List.mem_cons, List.mem_cons, h v]
    simp only [firsts, h w.1, ih h, hcons]

theorem mem_ends_firsts {seen : List α} {ws : List (Walk α)} {v : α} :
    v ∈ ends (firsts seen ws) ↔ v ∈ ends ws ∧ v ∉ seen := by
  induction ws generalizing seen with
  | nil => simp [firsts, ends]
  | cons w ws ih =>
    by_cases hw : w.1 ∈ seen
    · rw [firsts, if_pos hw, ih, mem_ends_cons]
      constructor
      · exact fun h => ⟨Or.inr h.1, h.2⟩
      · rintro ⟨rfl | hv, hnot⟩
        · exact absurd hw hnot
        · exact ⟨hv, hnot⟩
    · rw [firsts, if_neg hw, mem_ends_cons, ih, mem_ends_cons, List.mem_cons]
      by_cases hv : v = w.1
      · subst hv
        simp [hw]
      · simp [hv]

theorem mem_of_mem_firsts {seen : List α} {ws : List (Walk α)} {w : Walk α}
    (h : w ∈ firsts seen ws) : w ∈ ws := by
  induction ws generalizing seen with
  | nil => exact h
  | cons w' ws ih =>
    by_cases hw : w'.1 ∈ seen
    · rw [firsts, if_pos hw] at h
      exact List.mem_cons_of_mem w' (ih h)
    · rw [firsts, if_neg hw] at h
      rcases List.mem_cons.mp h with rfl | h
      · exact List.mem_cons_self
      · exact List.mem_cons_of_mem w' (ih h)

theorem nodup_ends_firsts (seen : List α) (ws : List (Walk α)) : (ends (firsts seen ws)).Nodup := by
  induction ws generalizing seen with
  | nil => exact List.nodup_nil
  | cons w ws ih =>
    by_cases hw : w.1 ∈ seen
    · rw [firsts, if_pos hw]
      exact ih seen
    · rw [firsts, if_neg hw, ends, List.map_cons, List.nodup_cons]
      refine ⟨fun hmem => ?_, ih _⟩
      exact (mem_ends_firsts.mp hmem).2 List.mem_cons_self

theorem firsts_append (seen : List α) (ws ws' : List (Walk α)) :
    firsts seen (ws ++ ws') = firsts seen ws ++ firsts (ends ws ++ seen) ws' := by
  induction ws generalizing seen with
  | nil => rfl
  | cons w ws ih =>
    by_cases hw : w.1 ∈ seen
    · rw [List.cons_append, firsts, if_pos hw, firsts, if_pos hw, ih]
      congr 1
      apply firsts_congr
      intro v
      simp only [ends, List.map_cons, List.cons_append, List.mem_cons, List.mem_append]
      constructor
      · exact Or.inr
      · rintro (rfl | hv)
        · exact Or.inr hw
        · exact hv
    · rw [List.cons_append, firsts, if_neg hw, firsts, if_neg hw, ih, List.cons_append]
      congr 2
      apply firsts_congr
      intro v
      simp only [ends, List.map_cons, List.cons_append, List.mem_cons, List.mem_append]
      tauto

theorem firsts_of_subset {seen : List α} {ws : List (Walk α)} (h : ∀ w ∈ ws, w.1 ∈ seen) :
    firsts seen ws = [] := by
  induction ws with
  | nil => rfl
  | cons w ws ih =>
    rw [firsts, if_pos (h w List.mem_cons_self)]
    exact ih fun w' hw' => h w' (List.mem_cons_of_mem w hw')

theorem firsts_mono {ws ws' : List (Walk α)} (h : ws <+: ws') (seen : List α) :
    firsts seen ws <+: firsts seen ws' := by
  obtain ⟨rest, rfl⟩ := h
  rw [firsts_append]
  exact List.prefix_append _ _

/-- A goal that is not among the seen nodes is found on the same walk. -/
theorem find?_firsts {seen : List α} (h : ∀ v ∈ seen, goal v = false) (ws : List (Walk α)) :
    (firsts seen ws).find? (fun w => goal w.1) = ws.find? fun w => goal w.1 := by
  induction ws generalizing seen with
  | nil => rfl
  | cons w ws ih =>
    by_cases hw : w.1 ∈ seen
    · rw [firsts, if_pos hw, ih h, List.find?_cons_of_neg (by simp [h w.1 hw])]
    · rw [firsts, if_neg hw]
      by_cases hgoal : goal w.1 = true
      · rw [List.find?_cons_of_pos (by exact hgoal), List.find?_cons_of_pos (by exact hgoal)]
      · rw [List.find?_cons_of_neg (by exact hgoal), List.find?_cons_of_neg (by exact hgoal)]
        apply ih
        intro v hv
        rcases List.mem_cons.mp hv with rfl | hv
        · exact Bool.eq_false_iff.mpr hgoal
        · exact h v hv

theorem find?_firsts_nil (goal : α → Bool) (ws : List (Walk α)) :
    (firsts [] ws).find? (fun w => goal w.1) = ws.find? fun w => goal w.1 :=
  find?_firsts (fun _ hv => absurd hv List.not_mem_nil) ws

/-- From a node it is enough to go on along the first walk that leads to it. -/
theorem firsts_flatMap {seen done : List α} (h : ∀ v ∈ done, ∀ u ∈ adj v, u ∈ seen)
    (ws : List (Walk α)) :
    firsts seen (ws.flatMap (extend adj)) = firsts seen ((firsts done ws).flatMap (extend adj)) := by
  induction ws generalizing seen done with
  | nil => rfl
  | cons w ws ih =>
    rw [List.flatMap_cons, firsts_append, ends_extend]
    by_cases hw : w.1 ∈ done
    · have hnone : firsts seen (extend adj w) = [] := by
        apply firsts_of_subset
        intro w' hw'
        apply h w.1 hw
        rw [← ends_extend adj w]
        exact List.mem_map_of_mem hw'
      have hsame : ∀ v, v ∈ adj w.1 ++ seen ↔ v ∈ seen := by
        intro v
        rw [List.mem_append, or_iff_right_iff_imp]
        exact h w.1 hw v
      rw [hnone, List.nil_append, firsts_congr hsame, firsts, if_pos hw]
      exact ih h
    · rw [firsts, if_neg hw, List.flatMap_cons, firsts_append, ends_extend]
      congr 1
      apply ih
      intro v hv u hu
      rcases List.mem_cons.mp hv with rfl | hv
      · exact List.mem_append_left _ hu
      · exact List.mem_append_right _ (h v hv u hu)

/-- The first walks that lead on from the first walks. -/
theorem firsts_upTo_succ (adj : α → List α) (source : α) (k : Nat) :
    firsts [] (upTo adj source (k + 1)) =
      firsts [] ((source, []) :: (firsts [] (upTo adj source k)).flatMap (extend adj)) := by
  rw [upTo_succ, firsts, if_neg List.not_mem_nil, firsts, if_neg List.not_mem_nil]
  congr 1
  exact firsts_flatMap (fun v hv => absurd hv List.not_mem_nil) _

/-! ### The search -/

/-- Take the walks of the queue in turn, and put the first walks that lead on behind the others.
Without enough steps there is no result. -/
def search (adj : α → List α) (goal : α → Bool) :
    Nat → List α → List (Walk α) → Option (Option (Walk α))
  | 0, _, _ => none
  | _ + 1, _, [] => some none
  | steps + 1, seen, w :: queue =>
      if goal w.1 then some (some w)
      else
        let fresh := firsts seen (extend adj w)
        search adj goal steps (ends fresh ++ seen) (queue ++ fresh)

/-- After `taken`, the queue has what leads on from there, and no walk comes before the ones taken. -/
structure Searching (adj : α → List α) (source : α) (goal : α → Bool) (taken : List (Walk α))
    (seen : List α) (queue : List (Walk α)) : Prop where
  found : taken ++ queue = firsts [] ((source, []) :: taken.flatMap (extend adj))
  seen : ∀ v, v ∈ seen ↔ v ∈ ends (taken ++ queue)
  foremost : ∃ k₀, ∀ k ≥ k₀, taken <+: firsts [] (upTo adj source k)
  missed : ∀ w ∈ taken, goal w.1 = false
  short : ∀ w ∈ queue, w.2.length ≤ taken.length

/-- The result is what the first walks of all lengths say. -/
def Settled (adj : α → List α) (source : α) (goal : α → Bool) (r : Option (Walk α)) : Prop :=
  ∃ k₀, ∀ k ≥ k₀, (upTo adj source k).find? (fun w => goal w.1) = r

namespace Searching

variable {taken queue : List (Walk α)} {seen : List α} {w : Walk α}

theorem start (adj : α → List α) (source : α) (goal : α → Bool) :
    Searching adj source goal [] [source] [(source, [])] where
  found := rfl
  seen _ := Iff.rfl
  foremost := ⟨0, fun _ _ => List.nil_prefix⟩
  missed _ h := absurd h List.not_mem_nil
  short w h := by
    rw [List.mem_singleton.mp h]
    exact Nat.zero_le _

/-- What is next in the queue comes next among the first walks. -/
theorem foremost_next (h : Searching adj source goal taken seen (w :: queue)) :
    ∃ k₀, ∀ k ≥ k₀, taken ++ [w] <+: firsts [] (upTo adj source k) := by
  obtain ⟨k₀, hk₀⟩ := h.foremost
  refine ⟨k₀ + 1, fun k hk => ?_⟩
  obtain ⟨j, rfl⟩ : ∃ j, k = j + 1 := ⟨k - 1, by omega⟩
  rw [firsts_upTo_succ]
  have hnext : taken ++ [w] <+: taken ++ w :: queue := ⟨queue, by simp⟩
  refine hnext.trans ?_
  rw [h.found]
  exact firsts_mono ((List.prefix_cons_inj _).mpr ((hk₀ j (by omega)).flatMap _)) []

theorem step (h : Searching adj source goal taken seen (w :: queue)) (hw : goal w.1 = false) :
    Searching adj source goal (taken ++ [w]) (ends (firsts seen (extend adj w)) ++ seen)
      (queue ++ firsts seen (extend adj w)) where
  found := by
    have hseen : ∀ v, v ∈ seen ↔ v ∈ ends ((source, []) :: taken.flatMap (extend adj)) ++ [] := by
      intro v
      rw [h.seen, h.found, mem_ends_firsts, List.append_nil]
      exact and_iff_left List.not_mem_nil
    rw [List.flatMap_append, ← List.cons_append, firsts_append, ← h.found, List.flatMap_singleton,
      firsts_congr hseen]
    simp
  seen := by
    intro v
    rw [List.mem_append, h.seen]
    simp only [ends, List.map_append, List.mem_append, List.map_cons, List.mem_cons]
    simp
    tauto
  foremost := h.foremost_next
  missed := by
    intro w' hw'
    rcases List.mem_append.mp hw' with hw' | hw'
    · exact h.missed w' hw'
    · rw [List.mem_singleton.mp hw']
      exact hw
  short := by
    intro w' hw'
    rw [List.length_append, List.length_singleton]
    rcases List.mem_append.mp hw' with hw' | hw'
    · exact (h.short w' (List.mem_cons_of_mem w hw')).trans (Nat.le_succ _)
    · obtain ⟨v, behind⟩ := w'
      obtain ⟨-, rfl⟩ := mem_extend.mp (mem_of_mem_firsts hw')
      exact Nat.succ_le_succ (h.short w List.mem_cons_self)

/-- A goal that is taken is the first one. -/
theorem settled_found (h : Searching adj source goal taken seen (w :: queue)) (hw : goal w.1 = true) :
    Settled adj source goal (some w) := by
  obtain ⟨k₀, hk₀⟩ := h.foremost_next
  refine ⟨k₀, fun k hk => ?_⟩
  rw [← find?_firsts_nil]
  apply (hk₀ k hk).find?_eq_some
  rw [List.find?_append, List.find?_eq_none.mpr fun w' hw' => by simp [h.missed w' hw']]
  simp [hw]

/-- With an empty queue the walks taken are all the first walks. -/
theorem settled_empty (h : Searching adj source goal taken seen []) :
    Settled adj source goal none := by
  have htaken : taken = firsts [] ((source, []) :: taken.flatMap (extend adj)) := by
    rw [← h.found, List.append_nil]
  have hall : ∀ k, firsts [] (upTo adj source k) <+: taken := by
    intro k
    induction k with
    | zero =>
      rw [htaken]
      exact firsts_mono ⟨_, rfl⟩ []
    | succ k ih =>
      rw [firsts_upTo_succ, htaken]
      exact firsts_mono ((List.prefix_cons_inj _).mpr (ih.flatMap _)) []
  refine ⟨0, fun k _ => ?_⟩
  rw [← find?_firsts_nil, List.find?_eq_none]
  intro w hw
  rw [h.missed w ((hall k).subset hw)]
  exact Bool.false_ne_true

/-- No more is taken than there are nodes. -/
theorem length_le (h : Searching adj source goal taken seen queue) {nodes : List α}
    (hsource : source ∈ nodes) (hadj : ∀ v, ∀ u ∈ adj v, u ∈ nodes) :
    (taken ++ queue).length ≤ nodes.length := by
  have hnodup : (ends (taken ++ queue)).Nodup := by
    rw [h.found]
    exact nodup_ends_firsts _ _
  have hsub : ends (taken ++ queue) ⊆ nodes := by
    intro v hv
    rw [h.found] at hv
    obtain ⟨w, hw, rfl⟩ := List.mem_map.mp hv
    rcases List.mem_cons.mp (mem_of_mem_firsts hw) with rfl | hw
    · exact hsource
    · obtain ⟨w', -, hextend⟩ := List.mem_flatMap.mp hw
      exact hadj w'.1 w.1 (mem_extend.mp hextend).1
  rw [← List.length_map (f := Prod.fst)]
  exact (List.subperm_of_subset hnodup hsub).length_le

end Searching

/-- **The search settles the question.** With a step for each node and one more it ends, and with the
first walk to a goal, if there is any. -/
theorem search_settles {nodes : List α} (hsource : source ∈ nodes)
    (hadj : ∀ v, ∀ u ∈ adj v, u ∈ nodes) {taken queue : List (Walk α)} {seen : List α} {steps : Nat}
    (h : Searching adj source goal taken seen queue) (hsteps : nodes.length < taken.length + steps) :
    ∃ r, search adj goal steps seen queue = some r ∧ Settled adj source goal r := by
  induction steps generalizing taken seen queue with
  | zero =>
    have hle := h.length_le hsource hadj
    rw [List.length_append] at hle
    omega
  | succ steps ih =>
    cases queue with
    | nil => exact ⟨none, rfl, h.settled_empty⟩
    | cons w queue =>
      rw [search]
      by_cases hw : goal w.1 = true
      · rw [if_pos hw]
        exact ⟨some w, rfl, h.settled_found hw⟩
      · rw [if_neg hw]
        apply ih (h.step (Bool.eq_false_iff.mpr hw))
        rw [List.length_append, List.length_singleton]
        omega

omit [DecidableEq α] in
theorem Settled.first {w : Walk α} (h : Settled adj source goal (some w)) : First adj source goal w := by
  obtain ⟨k₀, hk₀⟩ := h
  exact ⟨k₀, hk₀ k₀ (Nat.le_refl _)⟩

omit [DecidableEq α] in
/-- Where there is no result no walk leads to a goal. -/
theorem Settled.none_meets (h : Settled adj source goal none) {v : α} {behind : List α}
    (hwalk : IsWalk adj source v behind) : goal v = false := by
  obtain ⟨k₀, hk₀⟩ := h
  have hnone := hk₀ (max k₀ behind.length) (Nat.le_max_left _ _)
  have hmem : (v, behind) ∈ upTo adj source (max k₀ behind.length) :=
    mem_upTo_iff.mpr ⟨hwalk, Nat.le_max_right _ _⟩
  exact Bool.eq_false_iff.mpr (List.find?_eq_none.mp hnone _ hmem)

end Firsts

end Bfs
