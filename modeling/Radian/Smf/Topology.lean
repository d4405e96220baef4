import Radian.Bfs.Basic
import Radian.Smf.State

/-!
# The user-plane topology

The SMF selects the UPFs of a session by a breadth-first search of a configured graph, from the
access network to the nearest UPF that anchors the DNN.

- `UpTopology`, `UpTopology.validate` — the graph, and what is checked of it when it is read.
- `UpTopology.pathForDnn` — the search, over its maps of seen nodes and predecessors.
- `pathForDnn_eq` — it returns the first walk to an anchor, in the order of the links.
- `Selects` — what a session relies on.
- `selects_iff` — it holds exactly when that walk passes no second access network.
-/

namespace Radian.Smf

open Bfs (Walk IsWalk First Settled Searching)
open Keyed (Map)
open Pfcp (IpAddr)

/-! ### The topology -/

abbrev SocketAddr : Type := IpAddr × UInt16

inductive NodeKind where
  | an
  | upf
  deriving DecidableEq, Repr

structure UpNode where
  kind : NodeKind
  n4 : Option SocketAddr := none
  /-- The DNNs this UPF anchors. -/
  dnns : List String := []
  dnai : Option String := none
  deriving DecidableEq, Repr

/-- An undirected edge. -/
structure Link where
  a : String
  b : String
  deriving DecidableEq, Repr

/-- Uplink to a prefix is steered to a second anchor. -/
structure UpTopology.Route where
  dnn : String
  routePrefix : String
  via : String
  deriving DecidableEq, Repr

structure UpTopology where
  upNodes : Map String UpNode
  /-- A B-tree map lists its entries by name. -/
  ordered : upNodes.entries.Pairwise fun e e' => e.1 < e'.1
  links : List Link := []
  routes : List UpTopology.Route := []

inductive TopologyError where
  | noAn
  | upfWithoutN4 (name : String)
  | anWithDnns (name : String)
  | unknownLinkEnd (name : String)
  | unknownVia (dnn via : String)
  | invalidPrefix (dnn routePrefix : String)
  deriving DecidableEq, Repr

/-- `addr/len`, the length in range for the family of the address. -/
def validCidr (s : String) : Bool :=
  match Text.splitOnce '/' s.toList with
  | none => false
  | some (addr, len) =>
      match IpAddr.fromStr addr, Text.parseUnsigned 10 8 len with
      | some (.v4 _), some len => len ≤ 32
      | some (.v6 _), some len => len ≤ 128
      | _, _ => false

namespace UpTopology

variable (t : UpTopology)

def validateNode (name : String) (node : UpNode) : Except TopologyError Unit :=
  match node.kind with
  | .upf => if node.n4.isSome then .ok () else .error (.upfWithoutN4 name)
  | .an => if node.dnns.isEmpty then .ok () else .error (.anWithDnns name)

def validateEnd (name : String) : Except TopologyError Unit :=
  if (t.upNodes.lookup name).isSome then .ok () else .error (.unknownLinkEnd name)

def validateRoute (route : Route) : Except TopologyError Unit :=
  if (t.upNodes.lookup route.via).any fun n => n.kind == .upf then
    if validCidr route.routePrefix then .ok () else .error (.invalidPrefix route.dnn route.routePrefix)
  else .error (.unknownVia route.dnn route.via)

/-- Reject a topology that cannot be routed. -/
def validate : Except TopologyError Unit := do
  if t.upNodes.entries.any fun e => e.2.kind == .an then
    t.upNodes.entries.forM fun e => validateNode e.1 e.2
    t.links.forM fun link => do
      t.validateEnd link.a
      t.validateEnd link.b
    t.routes.forM t.validateRoute
  else .error .noAn

/-- The breakout rule of a DNN, the first match. -/
def breakoutForDnn (dnn : String) : Option Route := t.routes.find? fun r => r.dnn = dnn

/-- The node that exposes a DNAI. -/
def nodeForDnai (dnai : String) : Option String :=
  (t.upNodes.entries.find? fun e => e.2.dnai = some dnai).map fun e => e.1

/-- The first AN, the source of every default path. -/
def anNode : Option String := (t.upNodes.entries.find? fun e => e.2.kind == .an).map fun e => e.1

/-! ### The search -/

/-- Put a name behind the others under a key. -/
def pushName (key name : String) (adj : Map String (List String)) : Map String (List String) :=
  adj.insert key ((adj.lookup key).getD [] ++ [name])

/-- Each node's neighbours, in the order of the links. -/
def adjacency : Map String (List String) :=
  t.links.foldl (fun adj link => pushName link.b link.a (pushName link.a link.b adj)) ∅

/-- Whether a node lists a DNN. -/
def anchors (dnn name : String) : Bool := (t.upNodes.lookup name).any fun n => n.dnns.contains dnn

/-- The state of the search: each node's predecessor, the nodes seen, and those to visit. -/
structure Search where
  prev : Map String String := ∅
  seen : Map String Unit := ∅
  queue : List String

/-- See a neighbour of `node`, and queue it when it is new. -/
def Search.see (node : String) (st : Search) (next : String) : Search :=
  if (st.seen.lookup next).isSome then st
  else
    { prev := st.prev.insert next node
      seen := st.seen.insert next ()
      queue := st.queue ++ [next] }

/-- The nodes before `cur`, back to the source without it; `none` when there are too many. -/
def walkBack (prev : Map String String) (source : String) : Nat → String → Option (List String)
  | 0, _ => none
  | limit + 1, cur =>
      match prev.lookup cur with
      | none => some []
      | some p => if p = source then some [] else (walkBack prev source limit p).map fun ps => p :: ps

/-- Visit the nodes of the queue; `none` when the steps do not suffice. -/
def visit (source dnn : String) (adj : Map String (List String)) (limit : Nat) :
    Nat → Search → Option (Option (List String))
  | 0, _ => none
  | steps + 1, st =>
      match st.queue with
      | [] => some none
      | node :: queue =>
          if node ≠ source ∧ t.anchors dnn node then
            (walkBack st.prev source limit node).map fun behind => some (node :: behind).reverse
          else
            visit source dnn adj limit steps
              (((adj.lookup node).getD []).foldl (Search.see node) { st with queue })

/-- More than the nodes on the links. -/
def limit : Nat := 2 * t.links.length + 2

/-- The default UP path for a DNN: from the AN, without it, to the nearest UPF that anchors the DNN. -/
def pathForDnn (dnn : String) : Option (List String) := do
  let source ← t.anNode
  let start : Search := { seen := (∅ : Map String Unit).insert source (), queue := [source] }
  (t.visit source dnn t.adjacency t.limit t.limit start).join

/-! ### Routing over it -/

/-- What the SMF asks of the topology. -/
def routing : Topology :=
  { pathForDnn := t.pathForDnn
    breakoutForDnn := fun dnn =>
      (t.breakoutForDnn dnn).map fun r => { routePrefix := r.routePrefix, via := r.via }
    nodeForDnai := t.nodeForDnai }

/-- An SMF with a peer for every UPF of the topology. -/
def connectWithTopology : SmfState :=
  { peers := (t.upNodes.entries.filter fun e => e.2.kind == .upf).map fun e => e.1
    routing := .graph t.routing }

/-! ### The graph of the links -/

/-- The neighbours of a node, link by link. -/
def neighbours (name : String) : List String :=
  t.links.flatMap fun link =>
    (if link.a = name then [link.b] else []) ++ if link.b = name then [link.a] else []

/-- Two nodes with a link between them. -/
def Linked (x y : String) : Prop := ∃ link ∈ t.links, link.a = x ∧ link.b = y ∨ link.a = y ∧ link.b = x

/-- An anchor other than the source. -/
def isGoal (source dnn name : String) : Bool := decide (name ≠ source) && t.anchors dnn name

section Graph

variable {t} {source dnn : String}

theorem mem_neighbours {x y : String} : y ∈ t.neighbours x ↔ t.Linked x y := by
  simp only [neighbours, Linked, List.mem_flatMap, List.mem_append]
  refine exists_congr fun link => and_congr_right fun _ => or_congr ?_ ?_
  · by_cases h : link.a = x <;> simp [h, eq_comm]
  · by_cases h : link.b = x <;> simp [h, eq_comm]

theorem lookup_pushName (key name k : String) (adj : Map String (List String)) :
    ((pushName key name adj).lookup k).getD [] =
      (adj.lookup k).getD [] ++ if key = k then [name] else [] := by
  rw [pushName, Map.lookup_insert_eq]
  by_cases h : k = key
  · subst h
    rw [if_pos rfl, if_pos rfl, Option.getD_some]
  · rw [if_neg h, if_neg fun heq => h heq.symm, List.append_nil]

theorem lookup_adjacency (name : String) : (t.adjacency.lookup name).getD [] = t.neighbours name := by
  have hfold : ∀ (links : List Link) (adj : Map String (List String)),
      ((links.foldl (fun adj link => pushName link.b link.a (pushName link.a link.b adj)) adj).lookup
        name).getD [] =
      (adj.lookup name).getD [] ++ links.flatMap fun link =>
        (if link.a = name then [link.b] else []) ++ if link.b = name then [link.a] else [] := by
    intro links
    induction links with
    | nil => exact fun adj => (List.append_nil _).symm
    | cons link links ih =>
      intro adj
      rw [List.foldl_cons, ih, lookup_pushName, lookup_pushName, List.flatMap_cons]
      simp only [List.append_assoc]
  exact hfold t.links ∅

/-- The nodes on the links. -/
def onLinks (t : UpTopology) : List String := t.links.flatMap fun link => [link.a, link.b]

theorem length_onLinks : t.onLinks.length = 2 * t.links.length := by
  rw [onLinks]
  induction t.links with
  | nil => rfl
  | cons link links ih =>
    rw [List.flatMap_cons, List.length_append, ih, List.length_cons]
    simp only [List.length_cons, List.length_nil]
    omega

theorem mem_onLinks {x y : String} (h : t.Linked x y) : y ∈ t.onLinks := by
  obtain ⟨link, hmem, ⟨-, rfl⟩ | ⟨rfl, -⟩⟩ := h
  · exact List.mem_flatMap.mpr ⟨link, hmem, by simp⟩
  · exact List.mem_flatMap.mpr ⟨link, hmem, by simp⟩

end Graph

/-! ### The maps and the walks -/

/-- Following the predecessors from a node gives what lies behind it. -/
def Traced (prev : Map String String) (source : String) : String → List String → Prop
  | v, [] => v = source
  | v, u :: behind => v ≠ source ∧ prev.lookup v = some u ∧ Traced prev source u behind

/-- The search has the queue and the seen nodes of the search over walks, and a trace of each walk. -/
structure Follows (source : String) (st : Search) (seen : List String) (queue : List (Walk String)) :
    Prop where
  queued : st.queue = Bfs.ends queue
  known : ∀ v, (st.seen.lookup v).isSome ↔ v ∈ seen
  traced : ∀ w ∈ queue, Traced st.prev source w.1 w.2
  within : ∀ w ∈ queue, ∀ v ∈ w.1 :: w.2, v ∈ seen

section Traces

variable {prev : Map String String} {source v : String} {behind : List String}

theorem Traced.source_mem (h : Traced prev source v behind) : source ∈ v :: behind := by
  induction behind generalizing v with
  | nil => exact List.mem_singleton.mpr (show v = source from h).symm
  | cons u behind ih => exact List.mem_cons_of_mem v (ih h.2.2)

/-- A predecessor for a new node leaves the traces of the others. -/
theorem Traced.insert (h : Traced prev source v behind) {next node : String}
    (hnext : next ∉ v :: behind) : Traced (prev.insert next node) source v behind := by
  induction behind generalizing v with
  | nil => exact h
  | cons u behind ih =>
    rw [List.mem_cons, not_or] at hnext
    refine ⟨h.1, ?_, ih h.2.2 hnext.2⟩
    rw [Map.lookup_insert_eq, if_neg (Ne.symm hnext.1)]
    exact h.2.1

theorem walkBack_eq (h : Traced prev source v behind) (hne : behind ≠ []) {limit : Nat}
    (hlimit : behind.length < limit) : walkBack prev source limit v = some behind.dropLast := by
  induction behind generalizing v limit with
  | nil => exact absurd rfl hne
  | cons u behind ih =>
    obtain ⟨limit, rfl⟩ : ∃ n, limit = n + 1 := ⟨limit - 1, by omega⟩
    obtain ⟨-, hlookup, hrest⟩ := h
    simp only [walkBack, hlookup]
    cases behind with
    | nil =>
      rw [if_pos (show u = source from hrest)]
      rfl
    | cons u' behind =>
      rw [List.length_cons] at hlimit
      rw [if_neg hrest.1, ih hrest (List.cons_ne_nil _ _) (by omega)]
      rfl

variable {st : Search} {seen : List String} {queue : List (Walk String)}

theorem Follows.congr {seen' : List String} (h : Follows source st seen queue)
    (hseen : ∀ v, v ∈ seen ↔ v ∈ seen') : Follows source st seen' queue where
  queued := h.queued
  known v := (h.known v).trans (hseen v)
  traced := h.traced
  within w hw v hv := (hseen v).mp (h.within w hw v hv)

/-- Seeing the neighbours of a node queues the first walks that lead on from it. -/
theorem Follows.see (h : Follows source st seen queue) {node : String}
    (htraced : Traced st.prev source node behind) (hwithin : ∀ v ∈ node :: behind, v ∈ seen)
    (nexts : List String) :
    let fresh := Bfs.firsts seen (nexts.map fun v => (v, node :: behind))
    Follows source (nexts.foldl (Search.see node) st) (Bfs.ends fresh ++ seen) (queue ++ fresh) := by
  induction nexts generalizing st seen queue with
  | nil => simpa [Bfs.firsts, Bfs.ends] using h
  | cons next nexts ih =>
    rw [List.foldl_cons, List.map_cons, Bfs.firsts]
    by_cases hnext : next ∈ seen
    · rw [if_pos hnext, Search.see, if_pos ((h.known next).mpr hnext)]
      exact ih h htraced hwithin
    · have hfresh : next ∉ node :: behind := fun hmem => hnext (hwithin next hmem)
      rw [if_neg hnext, Search.see, if_neg fun hsome => hnext ((h.known next).mp hsome)]
      have hstep : Follows source
          { prev := st.prev.insert next node
            seen := st.seen.insert next ()
            queue := st.queue ++ [next] } (next :: seen) (queue ++ [(next, node :: behind)]) := by
        refine ⟨?_, fun v => ?_, fun w hw => ?_, fun w hw v hv => ?_⟩
        · rw [h.queued, Bfs.ends, Bfs.ends, List.map_append, List.map_singleton]
        · rw [Map.lookup_insert_eq, List.mem_cons]
          by_cases hv : v = next
          · simp [hv]
          · rw [if_neg hv, h.known v]
            simp [hv]
        · rcases List.mem_append.mp hw with hw | hw
          · exact (h.traced w hw).insert fun hmem => hnext (h.within w hw next hmem)
          · rw [List.mem_singleton.mp hw]
            refine ⟨?_, ?_, htraced.insert hfresh⟩
            · rintro rfl
              exact hfresh htraced.source_mem
            · rw [Map.lookup_insert_eq, if_pos rfl]
        · rcases List.mem_append.mp hw with hw | hw
          · exact List.mem_cons_of_mem next (h.within w hw v hv)
          · rw [List.mem_singleton.mp hw] at hv
            rcases List.mem_cons.mp hv with rfl | hv
            · exact List.mem_cons_self
            · exact List.mem_cons_of_mem next (hwithin v hv)
      have hrest := ih hstep (htraced.insert hfresh) fun v hv =>
        List.mem_cons_of_mem next (hwithin v hv)
      dsimp only at hrest ⊢
      rw [List.append_assoc, List.singleton_append] at hrest
      refine hrest.congr fun v => ?_
      simp only [Bfs.ends, List.map_cons, List.cons_append, List.mem_cons, List.mem_append]
      tauto

end Traces

/-- A walk to a node as a path: from the source on, without it. -/
def pathOf (w : Walk String) : List String := (w.1 :: w.2.dropLast).reverse

section Visit

variable {t} {source dnn : String} {st : Search} {seen : List String}
  {taken queue : List (Walk String)}

/-- The search over maps is the search over walks. -/
theorem visit_eq {steps : Nat} (h : Follows source st seen queue)
    (hsearch : Searching t.neighbours source (t.isGoal source dnn) taken seen queue)
    {limit : Nat} (hlimit : taken.length + steps ≤ limit) :
    t.visit source dnn t.adjacency limit steps st =
      (Bfs.search t.neighbours (t.isGoal source dnn) steps seen queue).map fun r => r.map pathOf := by
  induction steps generalizing st seen taken queue with
  | zero => rfl
  | succ steps ih =>
    cases queue with
    | nil =>
      have hqueue : st.queue = [] := h.queued
      simp only [visit, hqueue, Bfs.search, Option.map_some, Option.map_none]
    | cons w queue =>
      have hqueue : st.queue = w.1 :: Bfs.ends queue := h.queued
      have htraced := h.traced w List.mem_cons_self
      have hgoal : (w.1 ≠ source ∧ t.anchors dnn w.1 = true) ↔
          t.isGoal source dnn w.1 = true := by simp [isGoal]
      simp only [visit, hqueue, Bfs.search, hgoal]
      by_cases hw : t.isGoal source dnn w.1 = true
      · have hbehind : w.2 ≠ [] := by
          intro hnil
          rw [hnil] at htraced
          exact (hgoal.mpr hw).1 htraced
        have hshort := hsearch.short w List.mem_cons_self
        rw [if_pos hw, if_pos hw, walkBack_eq htraced hbehind (by omega)]
        rfl
      · rw [if_neg hw, if_neg hw, lookup_adjacency]
        have hrest : Follows source { st with queue := Bfs.ends queue } seen queue :=
          ⟨rfl, h.known, fun w' hw' => h.traced w' (List.mem_cons_of_mem w hw'),
            fun w' hw' => h.within w' (List.mem_cons_of_mem w hw')⟩
        apply ih (hrest.see htraced (h.within w List.mem_cons_self) (t.neighbours w.1))
          (hsearch.step (Bool.eq_false_iff.mpr hw))
        rw [List.length_append, List.length_singleton]
        omega

/-- **The search returns the first walk to an anchor.** It always comes to a result. -/
theorem pathForDnn_eq (hsource : t.anNode = some source) (dnn : String) :
    ∃ r, Settled t.neighbours source (t.isGoal source dnn) r ∧ t.pathForDnn dnn = r.map pathOf := by
  have hfollows : Follows source
      { seen := (∅ : Map String Unit).insert source (), queue := [source] } [source]
      [(source, [])] := by
    refine ⟨rfl, fun v => ?_, fun w hw => ?_, fun w hw v hv => ?_⟩
    · rw [Map.lookup_insert_eq, List.mem_singleton]
      by_cases hv : v = source <;> simp [hv]
    · rw [List.mem_singleton.mp hw]
      rfl
    · rw [List.mem_singleton.mp hw] at hv
      exact hv
  have hstart := Searching.start t.neighbours source (t.isGoal source dnn)
  have hadj : ∀ v, ∀ u ∈ t.neighbours v, u ∈ source :: t.onLinks := fun v u hu =>
    List.mem_cons_of_mem source (mem_onLinks (mem_neighbours.mp hu))
  have hsteps : (source :: t.onLinks).length < ([] : List (Walk String)).length + t.limit := by
    rw [List.length_cons, length_onLinks, List.length_nil, limit]
    omega
  obtain ⟨r, hr, hsettled⟩ := Bfs.search_settles List.mem_cons_self hadj hstart hsteps
  refine ⟨r, hsettled, ?_⟩
  have hvisit := visit_eq hfollows hstart (Nat.zero_add t.limit).le
  simp only [pathForDnn, hsource, Option.bind_eq_bind, Option.bind_some, hvisit, hr, Option.map_some,
    Option.join_some]

end Visit

/-! ### Topologies that were read -/

theorem andThen_eq_ok_iff {ε : Type} {x y : Except ε Unit} :
    (do x; y) = .ok () ↔ x = .ok () ∧ y = .ok () := by
  cases x with
  | error e => exact iff_of_false (fun h => nomatch h) fun h => nomatch h.1
  | ok _ => exact (and_iff_right rfl).symm

/-- Every check of a list succeeds exactly when each of them does. -/
theorem forM_eq_ok_iff {ε α : Type} {f : α → Except ε Unit} {l : List α} :
    l.forM f = .ok () ↔ ∀ a ∈ l, f a = .ok () := by
  induction l with
  | nil => exact iff_of_true rfl fun a ha => absurd ha List.not_mem_nil
  | cons a l ih =>
    show (do f a; l.forM f) = .ok () ↔ _
    rw [andThen_eq_ok_iff, ih, List.forall_mem_cons]

/-- What the checks of a topology come to. -/
structure Valid : Prop where
  an : ∃ name, t.anNode = some name
  nodes : ∀ name node, t.upNodes.lookup name = some node → validateNode name node = .ok ()
  links : ∀ link ∈ t.links, (t.upNodes.lookup link.a).isSome ∧ (t.upNodes.lookup link.b).isSome

variable {t}

theorem valid_of_validate (h : t.validate = .ok ()) : t.Valid := by
  unfold validate at h
  by_cases han : (t.upNodes.entries.any fun e => e.2.kind == .an) = true
  · rw [if_pos han, andThen_eq_ok_iff, andThen_eq_ok_iff, forM_eq_ok_iff, forM_eq_ok_iff] at h
    obtain ⟨hnodes, hlinks, -⟩ := h
    refine ⟨?_, fun name node hnode => ?_, fun link hlink => ?_⟩
    · obtain ⟨e, he⟩ := Option.isSome_iff_exists.mp (List.find?_isSome.mpr (List.any_eq_true.mp han))
      exact ⟨e.1, by rw [anNode, he, Option.map_some]⟩
    · exact hnodes ⟨name, node⟩ (Map.lookup_eq_some_iff.mp hnode)
    · have hends := andThen_eq_ok_iff.mp (hlinks link hlink)
      simpa only [validateEnd, ite_eq_left_iff, reduceCtorEq, imp_false, not_not] using hends
  · rw [if_neg han] at h
    cases h

theorem lookup_of_anNode {source : String} (h : t.anNode = some source) :
    ∃ node, t.upNodes.lookup source = some node ∧ node.kind = .an := by
  obtain ⟨e, he, rfl⟩ := Option.map_eq_some_iff.mp h
  refine ⟨e.2, Map.lookup_eq_some_iff.mpr (List.mem_of_find?_eq_some he), ?_⟩
  have hkind := List.find?_some he
  exact beq_iff_eq.mp hkind

/-- A node is a UPF with an N4 address. -/
def IsUpf (t : UpTopology) (name : String) : Prop :=
  ∃ node, t.upNodes.lookup name = some node ∧ node.kind = .upf ∧ node.n4.isSome

def isAn (t : UpTopology) (name : String) : Bool := (t.upNodes.lookup name).any fun n => n.kind == .an

namespace Valid

variable (h : t.Valid)
include h

/-- A node that is no AN is a UPF. -/
theorem isUpf_iff {name : String} (hname : (t.upNodes.lookup name).isSome) :
    t.IsUpf name ↔ t.isAn name = false := by
  obtain ⟨node, hnode⟩ := Option.isSome_iff_exists.mp hname
  have hchecked := h.nodes name node hnode
  rw [IsUpf, isAn, hnode, Option.any_some]
  cases hkind : node.kind with
  | an =>
    refine iff_of_false ?_ fun heq => nomatch heq
    rintro ⟨_, ⟨⟩, hupf, -⟩
    rw [hkind] at hupf
    cases hupf
  | upf =>
    refine iff_of_true ⟨node, rfl, hkind, ?_⟩ rfl
    rw [validateNode, hkind] at hchecked
    by_contra hn4
    simp [hn4] at hchecked

/-- An anchor is no AN. -/
theorem not_isAn_of_anchors {dnn name : String} (hanchors : t.anchors dnn name = true) :
    t.isAn name = false := by
  rcases hnode : t.upNodes.lookup name with _ | node
  · rw [isAn, hnode]
    rfl
  · have hchecked := h.nodes name node hnode
    rw [anchors, hnode, Option.any_some] at hanchors
    rw [isAn, hnode, Option.any_some]
    cases hkind : node.kind with
    | upf => rfl
    | an =>
      rw [validateNode, hkind] at hchecked
      have hdnns : node.dnns = [] := by
        by_contra hne
        simp [hne] at hchecked
      rw [hdnns] at hanchors
      cases hanchors

theorem isGoal_iff {source dnn name : String} (hsource : t.anNode = some source) :
    t.isGoal source dnn name = true ↔ t.anchors dnn name = true := by
  rw [isGoal, Bool.and_eq_true, decide_eq_true_iff, and_iff_right_iff_imp]
  rintro hanchors rfl
  obtain ⟨node, hnode, hkind⟩ := lookup_of_anNode hsource
  have hnot := h.not_isAn_of_anchors hanchors
  rw [isAn, hnode, Option.any_some, hkind] at hnot
  cases hnot

theorem lookup_of_linked {x y : String} (hlinked : t.Linked x y) : (t.upNodes.lookup y).isSome := by
  obtain ⟨link, hmem, ⟨-, rfl⟩ | ⟨rfl, -⟩⟩ := hlinked
  · exact (h.links link hmem).2
  · exact (h.links link hmem).1

end Valid

/-! ### Default paths -/

/-- A simple path of links that starts next to `source` and ends at a node that anchors the DNN, and
no such path is shorter. -/
structure IsDefaultPath (t : UpTopology) (source dnn : String) (path : List String) : Prop where
  linked : List.IsChain t.Linked (source :: path)
  simple : (source :: path).Nodup
  anchored : ∃ a, path.getLast? = some a ∧ t.anchors dnn a = true
  nearest : ∀ q a, List.IsChain t.Linked (source :: q) → q.getLast? = some a →
    t.anchors dnn a = true → path.length ≤ q.length

/-- A default path is found when there is one, it is one, and it is made of UPFs to which the SMF is
connected. -/
structure Selects (t : UpTopology) (source dnn : String) : Prop where
  found : (t.pathForDnn dnn).isSome ↔
    ∃ a, Relation.ReflTransGen t.Linked source a ∧ t.anchors dnn a = true
  default : ∀ path, t.pathForDnn dnn = some path → t.IsDefaultPath source dnn path
  upfs : ∀ path, t.pathForDnn dnn = some path → ∀ name ∈ path, t.IsUpf name
  connected : ∀ path, t.pathForDnn dnn = some path → ∀ name ∈ path,
    t.connectWithTopology.peerByName name = some name

section Paths

variable {source dnn : String} {w : Walk String} {path : List String}

theorem reflTransGen_neighbours {v : String} :
    Relation.ReflTransGen (fun x y => y ∈ t.neighbours x) source v ↔
      Relation.ReflTransGen t.Linked source v := by
  simp only [mem_neighbours]

/-- The source and the path of a walk are the walk read forwards. -/
theorem source_cons_pathOf (hwalk : IsWalk t.neighbours source w.1 w.2) (hne : w.1 ≠ source) :
    source :: pathOf w = (w.1 :: w.2).reverse := by
  have hlast := (Bfs.isWalk_iff.mp hwalk).2
  obtain ⟨v, behind⟩ := w
  rcases List.eq_nil_or_concat behind with rfl | ⟨rest, u, rfl⟩
  · exact absurd hwalk hne
  · dsimp only at hlast
    rw [List.concat_eq_append, ← List.cons_append, List.getLast?_concat, Option.some_inj] at hlast
    subst hlast
    simp [pathOf]

theorem First.isDefaultPath (h : t.Valid) (hsource : t.anNode = some source)
    (hfirst : First t.neighbours source (t.isGoal source dnn) w) :
    t.IsDefaultPath source dnn (pathOf w) := by
  have hgoal := hfirst.meets
  have hne : w.1 ≠ source := by
    rw [isGoal, Bool.and_eq_true, decide_eq_true_iff] at hgoal
    exact hgoal.1
  have hpath := source_cons_pathOf hfirst.isWalk hne
  refine ⟨?_, ?_, ⟨w.1, ?_, (h.isGoal_iff hsource).mp hgoal⟩, ?_⟩
  · rw [hpath]
    have hchain := (Bfs.isWalk_iff.mp hfirst.isWalk).1
    simpa only [mem_neighbours] using hchain
  · rw [hpath]
    exact List.nodup_reverse.mpr hfirst.nodup
  · rw [pathOf, List.getLast?_reverse, List.head?_cons]
  · intro q a hchain hlast hanchors
    obtain ⟨rest, rfl⟩ := List.getLast?_eq_some_iff.mp hlast
    have hwalk : IsWalk t.neighbours source a (source :: rest).reverse := by
      rw [Bfs.isWalk_iff]
      constructor
      · simpa only [mem_neighbours, List.reverse_cons, List.reverse_append, List.reverse_reverse,
          List.reverse_nil, List.nil_append, List.singleton_append, List.cons_append] using hchain
      · rw [List.reverse_cons, ← List.cons_append, List.getLast?_concat]
    have hle := hfirst.minimal hwalk ((h.isGoal_iff hsource).mpr hanchors)
    have hlength := congrArg List.length hpath
    simp only [List.length_cons, List.length_reverse, List.length_append] at hle hlength ⊢
    omega

theorem pathForDnn_isSome_iff (h : t.Valid) (hsource : t.anNode = some source) :
    (t.pathForDnn dnn).isSome ↔
      ∃ a, Relation.ReflTransGen t.Linked source a ∧ t.anchors dnn a = true := by
  obtain ⟨r, hsettled, hpath⟩ := pathForDnn_eq hsource dnn
  rw [hpath]
  cases r with
  | none =>
    refine iff_of_false Bool.false_ne_true ?_
    rintro ⟨a, hreach, hanchors⟩
    obtain ⟨behind, hwalk⟩ := Bfs.exists_isWalk_iff.mpr (reflTransGen_neighbours.mpr hreach)
    have hnot := hsettled.none_meets hwalk
    rw [(h.isGoal_iff hsource).mpr hanchors] at hnot
    cases hnot
  | some w =>
    have hfirst := hsettled.first
    refine iff_of_true rfl ⟨w.1, ?_, (h.isGoal_iff hsource).mp hfirst.meets⟩
    exact reflTransGen_neighbours.mp (Bfs.exists_isWalk_iff.mp ⟨w.2, hfirst.isWalk⟩)

/-- Every node of a default path is linked. -/
theorem IsDefaultPath.lookup_isSome (h : t.Valid) (hpath : t.IsDefaultPath source dnn path)
    {name : String} (hname : name ∈ path) : (t.upNodes.lookup name).isSome := by
  obtain ⟨before, after, rfl⟩ := List.append_of_mem hname
  have hlinked := hpath.linked
  rw [← List.cons_append, List.isChain_append] at hlinked
  obtain ⟨-, -, hbetween⟩ := hlinked
  rcases List.eq_nil_or_concat (source :: before) with hnil | ⟨rest, x, hrest⟩
  · cases hnil
  · refine h.lookup_of_linked (hbetween x ?_ name (by simp))
    rw [hrest, List.concat_eq_append, List.getLast?_concat]
    rfl

theorem peerByName_of_isUpf {name : String} (hupf : t.IsUpf name) :
    t.connectWithTopology.peerByName name = some name := by
  obtain ⟨node, hnode, hkind, -⟩ := hupf
  rw [SmfState.peerByName, if_pos]
  refine List.mem_map.mpr ⟨⟨name, node⟩, List.mem_filter.mpr ⟨?_, ?_⟩, rfl⟩
  · exact Map.lookup_eq_some_iff.mp hnode
  · exact beq_iff_eq.mpr hkind

end Paths

/-- **The default path of a DNN.** For every topology that was read and every DNN, a default path is found when
there is one, it is one, and it is made of connected UPFs, exactly when the first of the shortest walks from the
AN to an anchor, in the order of the links, passes no other AN. -/
theorem selects_iff (t : UpTopology) (h : t.validate = .ok ()) (dnn : String) :
    ∃ source, t.anNode = some source ∧
      (t.Selects source dnn ↔
        ∀ w, First t.neighbours source (t.isGoal source dnn) w →
          ∀ name ∈ w.2.dropLast, t.isAn name = false) := by
  have hvalid := valid_of_validate h
  obtain ⟨source, hsource⟩ := hvalid.an
  refine ⟨source, hsource, ?_⟩
  obtain ⟨r, hsettled, hpath⟩ := pathForDnn_eq hsource dnn
  constructor
  · intro hselects w hfirst name hname
    obtain rfl : r = some w := by
      cases r with
      | none =>
          have hnot := hsettled.none_meets hfirst.isWalk
          rw [hfirst.meets] at hnot
          cases hnot
      | some w' => rw [hsettled.first.unique hfirst]
    obtain ⟨node, hnode, hkind, -⟩ := hselects.upfs (pathOf w) hpath name
      (List.mem_reverse.mpr (List.mem_cons_of_mem w.1 hname))
    rw [isAn, hnode, Option.any_some, hkind]
    rfl
  · intro hpasses
    have hdefault : ∀ path, t.pathForDnn dnn = some path → t.IsDefaultPath source dnn path := by
      intro path hsome
      rw [hpath, Option.map_eq_some_iff] at hsome
      obtain ⟨w, rfl, rfl⟩ := hsome
      exact First.isDefaultPath hvalid hsource hsettled.first
    have hupfs : ∀ path, t.pathForDnn dnn = some path → ∀ name ∈ path, t.IsUpf name := by
      intro path hsome name hname
      have hlookup := (hdefault path hsome).lookup_isSome hvalid hname
      rw [hpath, Option.map_eq_some_iff] at hsome
      obtain ⟨w, rfl, rfl⟩ := hsome
      rw [hvalid.isUpf_iff hlookup]
      rcases List.mem_cons.mp (List.mem_reverse.mp hname) with rfl | hname
      · exact hvalid.not_isAn_of_anchors ((hvalid.isGoal_iff hsource).mp hsettled.first.meets)
      · exact hpasses w hsettled.first name hname
    exact ⟨pathForDnn_isSome_iff hvalid hsource, hdefault, hupfs,
      fun path hsome name hname => peerByName_of_isUpf (hupfs path hsome name hname)⟩

/-- Two access networks in a row before the anchor. -/
def twoAns : UpTopology where
  upNodes := (((∅ : Map String UpNode).insert "upf" { kind := .upf, n4 := some (.v4 0x7F000002, 8805)
                                                      dnns := ["internet"] }).insert
    "gnb2" { kind := .an }).insert "gnb1" { kind := .an }
  ordered := by decide
  links := [⟨"gnb1", "gnb2"⟩, ⟨"gnb2", "upf"⟩]

theorem selects_iff_twoAns :
    ∃ source, twoAns.anNode = some source ∧
      (twoAns.Selects source "internet" ↔
        ∀ w, First twoAns.neighbours source (twoAns.isGoal source "internet") w →
          ∀ name ∈ w.2.dropLast, twoAns.isAn name = false) :=
  selects_iff twoAns (by decide) "internet"

/-- The path from one access network leads through the other, which is no UPF. -/
theorem path_through_an :
    twoAns.validate = .ok () ∧ twoAns.anNode = some "gnb1" ∧
      twoAns.pathForDnn "internet" = some ["gnb2", "upf"] ∧
      twoAns.connectWithTopology.peerByName "gnb2" = none ∧ ¬ twoAns.Selects "gnb1" "internet" := by
  have hpath : twoAns.pathForDnn "internet" = some ["gnb2", "upf"] := by decide
  refine ⟨by decide, by decide, hpath, by decide, fun hselects => ?_⟩
  have hconnected := hselects.connected _ hpath "gnb2" List.mem_cons_self
  exact absurd hconnected (by decide)

end UpTopology

end Radian.Smf
