import Mathlib.Data.Fintype.EquivFin
import Mathlib.Order.WellFounded

/-! # Directed graphs: acyclicity and topological peeling

    A graph is a relation, or a list of its edges.  `peel` removes nodes that
    have no incoming edge left, one after the other, and counts them; the graph
    has a cycle where the count stays short of the number of nodes.  The two
    composition rules say how a graph may grow: by a new node that only points
    out (`Acyclic.add_source`), or by a part no edge leaves
    (`Acyclic.union_closed`). -/

namespace Digraph

open Relation List

variable {α : Type}
variable {edges : List (α × α)} {R S : α → α → Prop} {a b : α}

/-- No node reaches itself. -/
def Acyclic (R : α → α → Prop) : Prop := ∀ a, ¬ TransGen R a a

theorem Acyclic.mono (h : Acyclic S) (hle : ∀ a b, R a b → S a b) : Acyclic R :=
  fun a hcycle => h a (.mono hle a a hcycle)

/-- A new node that only points out closes no cycle. -/
theorem Acyclic.add_source (h : Acyclic R) {t : α} {targets : List α} (hin : ∀ a, ¬ R a t)
    (ht : t ∉ targets) :
    Acyclic (fun a b => R a b ∨ a = t ∧ b ∈ targets) := by
  intro a hcycle
  -- Nothing enters `t`, so no path ends in `t`.
  have hend : ∀ x, ¬ TransGen (fun a b => R a b ∨ a = t ∧ b ∈ targets) x t := by
    intro x hx
    obtain ⟨y, -, hy⟩ := TransGen.tail'_iff.mp hx
    rcases hy with hy | ⟨-, hy⟩
    · exact hin y hy
    · exact ht hy
  have hpath : ∀ {x y}, TransGen (fun a b => R a b ∨ a = t ∧ b ∈ targets) x y →
      x ≠ t → TransGen R x y := by
    intro x y hxy hx
    induction hxy with
    | single hstep =>
      rcases hstep with hstep | ⟨hxt, -⟩
      · exact .single hstep
      · exact absurd hxt hx
    | tail hxz hstep ih =>
      rcases hstep with hstep | ⟨hzt, -⟩
      · exact ih.tail hstep
      · rw [hzt] at hxz
        exact absurd hxz (hend x)
  by_cases hat : a = t
  · rw [hat] at hcycle
    exact hend t hcycle
  · exact h a (hpath hcycle hat)

/-- A path either stays in the first part or takes a step of the second. -/
theorem transGen_union_cases (h : TransGen (fun x y => R x y ∨ S x y) a b) :
    TransGen R a b
      ∨ ∃ x y, ReflTransGen (fun x y => R x y ∨ S x y) a x ∧ S x y
          ∧ ReflTransGen (fun x y => R x y ∨ S x y) y b := by
  induction h with
  | single hstep =>
    rcases hstep with hR | hS
    · exact .inl (.single hR)
    · exact .inr ⟨_, _, .refl, hS, .refl⟩
  | tail hac hstep ih =>
    rcases ih with hR | ⟨x, y, hax, hxy, hyc⟩
    · rcases hstep with hR' | hS
      · exact .inl (hR.tail hR')
      · exact .inr ⟨_, _, hac.to_reflTransGen, hS, .refl⟩
    · exact .inr ⟨x, y, hax, hxy, hyc.tail hstep⟩

/-- What follows a step of a closed part stays in it. -/
theorem reflTransGen_of_closed (hclos : ∀ a b c, S a b → R b c → S b c) {c : α} (hab : S a b)
    (hbc : ReflTransGen (fun x y => R x y ∨ S x y) b c) :
    ReflTransGen S b c ∧ ∃ x, S x c := by
  induction hbc with
  | refl => exact ⟨.refl, a, hab⟩
  | tail _ hstep ih =>
    obtain ⟨hbd, x, hxd⟩ := ih
    have hS : S _ _ := hstep.elim (hclos x _ _ hxd) id
    exact ⟨hbd.tail hS, _, hS⟩

/-- A part that no edge leaves may be checked for cycles on its own. -/
theorem Acyclic.union_closed (hR : Acyclic R) (hS : Acyclic S)
    (hclos : ∀ a b c, S a b → R b c → S b c) :
    Acyclic (fun a b => R a b ∨ S a b) := by
  intro a hcycle
  rcases transGen_union_cases hcycle with h | ⟨x, y, hax, hxy, hya⟩
  · exact hR a h
  · -- The cycle is walked from the step in `S`: it never leaves `S` again.
    obtain ⟨hyx, -⟩ := reflTransGen_of_closed hclos hxy (hya.trans hax)
    exact hS y (.tail' hyx hxy)

/-! ## Dependency order -/

/-- The edge relation of a list. -/
def Edge (edges : List (α × α)) (a b : α) : Prop := (a, b) ∈ edges

/-- Each node of the list has its predecessors behind it. -/
inductive Ordered (edges : List (α × α)) : List α → Prop where
  | nil : Ordered edges []
  | cons {node : α} {done : List α} (h : ∀ a, (a, node) ∈ edges → a ∈ done) :
      Ordered edges done → Ordered edges (node :: done)

theorem Ordered.acc {order : List α} (h : Ordered edges order) :
    ∀ n ∈ order, Acc (Edge edges) n := by
  induction h with
  | nil => exact fun _ hn => nomatch hn
  | cons hpred _ ih =>
    intro n hn
    rcases mem_cons.mp hn with rfl | hn
    · exact .intro n (fun a ha => ih a (hpred a ha))
    · exact ih n hn

theorem not_rel_self_of_acc (h : Acc R a) :
    ¬ R a a := by
  induction h with
  | intro a _ ih => exact fun haa => ih a haa haa

/-! ## Peeling -/

section Peel

variable [DecidableEq α]

/-- The nodes of an edge list, each once. -/
def nodes (edges : List (α × α)) : List α :=
  (edges.flatMap (fun e => [e.1, e.2])).dedup

/-- The targets of the edges out of a node. -/
def targets (edges : List (α × α)) (node : α) : List α :=
  (edges.filter (fun e => e.1 = node)).map Prod.snd

/-- The number of edges into a node. -/
def indegree (edges : List (α × α)) (node : α) : ℤ :=
  (edges.filter (fun e => e.2 = node)).length

/-- Take one incoming edge from each neighbour and collect those that have
    none left. -/
def relax : List α → (α → ℤ) → List α → (α → ℤ) × List α
  | [], degree, roots => (degree, roots)
  | neighbor :: rest, degree, roots =>
    let degree := Function.update degree neighbor (degree neighbor - 1)
    relax rest degree (if degree neighbor = 0 then neighbor :: roots else roots)

/-- Peel nodes without incoming edges; returns how many were peeled. -/
def peel (edges : List (α × α)) : ℕ → (α → ℤ) → List α → ℕ → ℕ
  | 0, _, _, visited => visited
  | _ + 1, _, [], visited => visited
  | fuel + 1, degree, node :: roots, visited =>
    let relaxed := relax (targets edges node) degree roots
    peel edges fuel relaxed.1 relaxed.2 (visited + 1)

/-- The nodes without incoming edges. -/
def rootsOf (edges : List (α × α)) : List α :=
  (nodes edges).filter (fun node => indegree edges node = 0)

/-- Peeling does not reach every node. -/
def hasCycle (edges : List (α × α)) : Bool :=
  let edges := edges.dedup
  peel edges (nodes edges).length (indegree edges) (rootsOf edges) 0
    ≠ (nodes edges).length

theorem mem_nodes_left (h : (a, b) ∈ edges) : a ∈ nodes edges :=
  mem_dedup.mpr (mem_flatMap.mpr ⟨(a, b), h, mem_cons_self ..⟩)

theorem mem_nodes_right (h : (a, b) ∈ edges) : b ∈ nodes edges := mem_dedup.mpr (mem_flatMap.mpr
    ⟨(a, b), h, mem_cons_of_mem _ (mem_cons_self ..)⟩)

theorem mem_targets {node : α} :
    b ∈ targets edges node ↔ (node, b) ∈ edges := by
  constructor
  · intro h
    obtain ⟨e, he, rfl⟩ := mem_map.mp h
    obtain ⟨hmem, hnode⟩ := mem_filter.mp he
    rw [← of_decide_eq_true hnode]
    exact hmem
  · intro h
    exact mem_map.mpr ⟨(node, b), mem_filter.mpr ⟨h, decide_eq_true rfl⟩, rfl⟩

theorem targets_nodup (h : edges.Nodup) (node : α) :
    (targets edges node).Nodup := by
  refine Nodup.map_on ?_ (h.filter _)
  intro _ he _ he' heq
  have h1 := of_decide_eq_true (mem_filter.mp he).2
  have h2 := of_decide_eq_true (mem_filter.mp he').2
  exact Prod.ext (h1.trans h2.symm) heq

/-- What `relax` computes: one edge less for each neighbour. -/
theorem relax_spec : ∀ (neighbors : List α) (degree : α → ℤ) (roots : List α), neighbors.Nodup →
      (∀ n, (relax neighbors degree roots).1 n
          = if n ∈ neighbors then degree n - 1 else degree n)
        ∧ (relax neighbors degree roots).2
          = (neighbors.filter (fun n => degree n = 1)).reverse ++ roots := by
  intro neighbors
  induction neighbors with
  | nil => exact fun _ _ _ => ⟨fun _ => rfl, rfl⟩
  | cons neighbor rest ih =>
    intro degree roots hnd
    obtain ⟨hnew, hr⟩ := nodup_cons.mp hnd
    have hself : Function.update degree neighbor (degree neighbor - 1) neighbor
        = degree neighbor - 1 := Function.update_self ..
    have hoth : ∀ n ∈ rest,
        Function.update degree neighbor (degree neighbor - 1) n = degree n := by
      intro n hn
      refine Function.update_of_ne ?_ ..
      rintro rfl
      exact hnew hn
    obtain ⟨hdeg, hroots⟩ := ih (Function.update degree neighbor (degree neighbor - 1))
      (if degree neighbor - 1 = 0 then neighbor :: roots else roots) hr
    have hstep : relax (neighbor :: rest) degree roots
        = relax rest (Function.update degree neighbor (degree neighbor - 1))
          (if degree neighbor - 1 = 0 then neighbor :: roots else roots) := by
      show relax rest _ (if Function.update degree neighbor _ neighbor = 0 then _ else _) = _
      rw [hself]
    refine ⟨fun n => ?_, ?_⟩
    · rw [hstep, hdeg n]
      by_cases hn : n = neighbor
      · rw [hn, if_neg hnew, if_pos (mem_cons_self ..), hself]
      · rw [Function.update_of_ne hn]
        simp only [mem_cons, hn, false_or]
    · rw [hstep, hroots]
      have hfilter : rest.filter (fun n =>
          Function.update degree neighbor (degree neighbor - 1) n = 1)
          = rest.filter (fun n => degree n = 1) :=
        filter_congr (fun n hn => by rw [hoth n hn])
      rw [hfilter, filter_cons]
      by_cases hone : degree neighbor = 1
      · simp [hone]
      · have hne : ¬ degree neighbor - 1 = 0 := by omega
        simp [hone, hne]

/-- The edges into a node from outside a list. -/
def pending (edges : List (α × α)) (done : List α) (node : α) : ℤ :=
  edges.countP (fun e => e.2 = node ∧ e.1 ∉ done)

theorem indegree_eq_pending (edges : List (α × α)) (node : α) :
    indegree edges node = pending edges [] node := by
  simp [indegree, pending, countP_eq_length_filter]

theorem pending_pos {done : List α} (h : (a, b) ∈ edges) (ha : a ∉ done) :
    0 < pending edges done b :=
  Int.natCast_pos.mpr (countP_pos_iff.mpr ⟨(a, b), h, decide_eq_true ⟨rfl, ha⟩⟩)

/-- Peeling a node takes its own edge from the count of each target. -/
theorem pending_cons {done : List α} {node : α} (hnode : node ∉ done) (n : α) :
    ∀ {edges : List (α × α)}, edges.Nodup → pending edges done n = pending edges (node :: done) n
        + if (node, n) ∈ edges then 1 else 0 := by
  intro edges
  induction edges with
  | nil => exact fun _ => rfl
  | cons e edges ih =>
    intro hnd
    obtain ⟨hnew, hr⟩ := nodup_cons.mp hnd
    have hrec := ih hr
    simp only [pending, countP_cons] at hrec ⊢
    by_cases he : e = (node, n)
    · -- This is the one edge from `node` to `n`.
      rw [he] at hnew
      rw [if_neg hnew] at hrec
      rw [he, if_pos (mem_cons_self ..), if_pos (decide_eq_true ⟨rfl, hnode⟩), if_neg (by simp)]
      push_cast
      omega
    · have heq : (e.2 = n ∧ e.1 ∉ done) ↔ (e.2 = n ∧ e.1 ∉ node :: done) := by
        constructor
        · rintro ⟨hn, hdone⟩
          refine ⟨hn, fun hmem => ?_⟩
          rcases mem_cons.mp hmem with ha | ha
          · exact he (Prod.ext ha hn)
          · exact hdone ha
        · rintro ⟨hn, hdone⟩
          exact ⟨hn, fun hmem => hdone (mem_cons_of_mem _ hmem)⟩
      have hmem : (node, n) ∈ e :: edges ↔ (node, n) ∈ edges := by
        rw [mem_cons]
        exact or_iff_right (fun h => he h.symm)
      simp only [heq, hmem]
      push_cast
      omega

/-- What holds between two iterations: `done` are the nodes peeled so far. -/
structure Peeling (edges : List (α × α)) (degree : α → ℤ)
    (roots done : List α) : Prop where
  nodup : (done ++ roots).Nodup
  subset : done ++ roots ⊆ nodes edges
  degree_eq : ∀ n, degree n = pending edges done n
  degree_zero : ∀ n ∈ done ++ roots, degree n = 0
  ordered : Ordered edges done

theorem Peeling.start (edges : List (α × α)) :
    Peeling edges (indegree edges) (rootsOf edges) [] where
  nodup := (nodup_dedup _).filter _
  subset := fun _ hn => mem_of_mem_filter hn
  degree_eq := indegree_eq_pending edges
  degree_zero := fun _ hn => of_decide_eq_true (mem_filter.mp hn).2
  ordered := Ordered.nil

/-- A state of the loop: the edges that still enter each node, the roots, and the nodes
    visited so far. -/
structure Traversal (α : Type) where
  degree : α → ℤ
  roots : List α
  visited : List α

def Traversal.start (edges : List (α × α)) : Traversal α := ⟨indegree edges, rootsOf edges, []⟩

/-- One iteration: any of the roots is popped, and the edges out of it are walked in any
    order. -/
inductive Visits (edges : List (α × α)) : Traversal α → Traversal α → Prop where
  | pop {degree : α → ℤ} {roots rest visited neighbors : List α} {node : α}
      (hpop : roots.Perm (node :: rest)) (hwalk : neighbors.Perm (targets edges node)) :
      Visits edges ⟨degree, roots, visited⟩
        ⟨(relax neighbors degree rest).1, (relax neighbors degree rest).2, node :: visited⟩

/-- One iteration keeps the invariant, and no node without edges into it is forgotten. -/
theorem Peeling.step (hnd : edges.Nodup) {degree : α → ℤ} {node : α}
    {roots rest done neighbors : List α} (hpop : roots.Perm (node :: rest))
    (hwalk : neighbors.Perm (targets edges node)) (h : Peeling edges degree roots done)
    (hfree : ∀ n ∈ nodes edges, degree n = 0 → n ∈ done ++ roots) :
    Peeling edges (relax neighbors degree rest).1 (relax neighbors degree rest).2 (node :: done)
      ∧ ∀ n ∈ nodes edges, (relax neighbors degree rest).1 n = 0 →
        n ∈ node :: done ++ (relax neighbors degree rest).2 := by
  have hnds : neighbors.Nodup := hwalk.nodup_iff.mpr (targets_nodup hnd node)
  have hout : ∀ {n}, n ∈ neighbors ↔ (node, n) ∈ edges := hwalk.mem_iff.trans mem_targets
  obtain ⟨hdeg, hroots⟩ := relax_spec neighbors degree rest hnds
  have hperm : (node :: done ++ rest).Perm (done ++ roots) :=
    perm_middle.symm.trans (hpop.symm.append_left done)
  have hnotDone : node ∉ done :=
    fun hmem => (nodup_cons.mp (hperm.nodup_iff.mpr h.nodup)).1 (mem_append_left _ hmem)
  have hold : ∀ n ∈ node :: done ++ rest, degree n = 0 :=
    fun n hn => h.degree_zero n (hperm.mem_iff.mp hn)
  -- A node that is already free of incoming edges is no target.
  have hno : ∀ n, degree n = 0 → n ∉ neighbors := by
    intro n _ hmem
    have hpos := pending_pos (hout.mp hmem) hnotDone
    rw [← h.degree_eq n] at hpos
    omega
  have hnext : ∀ n, (relax neighbors degree rest).1 n = pending edges (node :: done) n := by
    intro n
    rw [hdeg n, h.degree_eq n, pending_cons hnotDone n hnd]
    by_cases hmem : n ∈ neighbors
    · rw [if_pos hmem, if_pos (hout.mp hmem)]
      omega
    · rw [if_neg hmem, if_neg (fun he => hmem (hout.mpr he))]
      omega
  have hmemNew : ∀ {n}, n ∈ (neighbors.filter (fun n => degree n = 1)).reverse
      ↔ n ∈ neighbors ∧ degree n = 1 := by
    intro n
    rw [mem_reverse, mem_filter, decide_eq_true_iff]
  have hcases : ∀ {n}, n ∈ node :: done ++ (relax neighbors degree rest).2
      ↔ n ∈ node :: done ++ rest ∨ n ∈ neighbors ∧ degree n = 1 := by
    intro n
    rw [hroots, mem_append, mem_append, hmemNew, mem_append]
    tauto
  refine ⟨⟨?_, ?_, hnext, ?_, Ordered.cons ?_ h.ordered⟩, ?_⟩
  · rw [hroots, ← append_assoc]
    have hswap : (node :: done ++ (neighbors.filter (fun n => degree n = 1)).reverse ++ rest).Perm
        ((neighbors.filter (fun n => degree n = 1)).reverse ++ (node :: done ++ rest)) := by
      rw [← append_assoc]
      exact .append_right _ perm_append_comm
    rw [hswap.nodup_iff]
    refine Nodup.append ?_ (hperm.nodup_iff.mpr h.nodup) ?_
    · exact nodup_reverse.mpr (hnds.filter _)
    · intro n hn hn'
      have h1 := (hmemNew.mp hn).2
      have h0 := hold n hn'
      omega
  · intro n hn
    rcases hcases.mp hn with hn | ⟨hn, -⟩
    · exact h.subset (hperm.mem_iff.mp hn)
    · exact mem_nodes_right (hout.mp hn)
  · intro n hn
    rcases hcases.mp hn with hn | ⟨hn, hone⟩
    · rw [hdeg n, if_neg (hno n (hold n hn))]
      exact hold n hn
    · rw [hdeg n, if_pos hn, hone]
      rfl
  · intro a ha
    by_contra hdone
    have hpos := pending_pos ha hdone
    rw [← h.degree_eq node, hold node (mem_cons_self ..)] at hpos
    omega
  · intro n hn hzero
    rw [hdeg n] at hzero
    refine hcases.mpr ?_
    by_cases hmem : n ∈ neighbors
    · rw [if_pos hmem] at hzero
      exact .inr ⟨hmem, by omega⟩
    · rw [if_neg hmem] at hzero
      exact .inl (hperm.mem_iff.mpr (hfree n hn hzero))

/-- What holds after any number of iterations, whatever root is popped in each. -/
theorem Traversal.peeling (hnd : edges.Nodup) {s : Traversal α}
    (h : ReflTransGen (Visits edges) (.start edges) s) :
    Peeling edges s.degree s.roots s.visited
      ∧ ∀ n ∈ nodes edges, s.degree n = 0 → n ∈ s.visited ++ s.roots := by
  induction h with
  | refl =>
    refine ⟨Peeling.start edges, fun n hn hzero => ?_⟩
    exact mem_filter.mpr ⟨hn, decide_eq_true hzero⟩
  | tail _ hstep ih =>
    obtain ⟨hpop, hwalk⟩ := hstep
    exact ih.1.step hnd hpop hwalk ih.2

/-- Where every node has been visited there is no cycle. -/
theorem Ordered.acyclic {order : List α} (h : Ordered edges order)
    (hall : ∀ n ∈ nodes edges, n ∈ order) : Acyclic (Edge edges) := by
  intro a hcycle
  obtain ⟨b, hab, -⟩ := TransGen.head'_iff.mp hcycle
  exact not_rel_self_of_acc (h.acc a (hall a (mem_nodes_left hab))).transGen hcycle

/-- Without a cycle, some node outside a list has all its predecessors in the list. -/
theorem Acyclic.exists_free (h : Acyclic (Edge edges)) {done : List α} {n : α}
    (hn : n ∈ nodes edges) (hdone : n ∉ done) :
    ∃ m ∈ nodes edges, m ∉ done ∧ ∀ a, (a, m) ∈ edges → a ∈ done := by
  -- on the nodes, of which there are finitely many, the paths are a well-founded relation
  let path : {n // n ∈ nodes edges} → {n // n ∈ nodes edges} → Prop :=
    fun a b => TransGen (Edge edges) a b
  have : IsTrans _ path := ⟨fun _ _ _ => .trans⟩
  have : Std.Irrefl path := ⟨fun a => h a⟩
  have hwf : WellFounded path := Finite.wellFounded_of_trans_of_irrefl path
  obtain ⟨⟨m, hm⟩, hout, hmin⟩ := hwf.has_min {a | a.1 ∉ done} ⟨⟨n, hn⟩, hdone⟩
  refine ⟨m, hm, hout, fun a ha => ?_⟩
  by_contra hnot
  exact hmin ⟨a, mem_nodes_left ha⟩ hnot (.single ha)

/-- **PEELING IS EXACT**: however the roots were popped, when none is left every node has
    been visited exactly if there is no cycle. -/
theorem Traversal.visited_all_iff (hnd : edges.Nodup) {s : Traversal α}
    (h : ReflTransGen (Visits edges) (.start edges) s) (hend : s.roots = []) :
    s.visited.length = (nodes edges).length ↔ Acyclic (Edge edges) := by
  obtain ⟨hpeel, hfree⟩ := peeling hnd h
  have hsubperm : s.visited.Subperm (nodes edges) :=
    hpeel.nodup.of_append_left.subperm fun n hn => hpeel.subset (mem_append_left _ hn)
  constructor
  · intro hlen
    have hperm := hsubperm.perm_of_length_le (Nat.le_of_eq hlen.symm)
    exact hpeel.ordered.acyclic fun n hn => hperm.mem_iff.mpr hn
  · intro hacyc
    have hall : nodes edges ⊆ s.visited := by
      intro n hn
      by_contra hdone
      obtain ⟨m, hm, hout, hpred⟩ := hacyc.exists_free hn hdone
      have hzero : s.degree m = 0 := by
        rw [hpeel.degree_eq, pending, Int.natCast_eq_zero, countP_eq_zero]
        rintro ⟨a, _⟩ he hdec
        obtain ⟨rfl, hnot⟩ := of_decide_eq_true hdec
        exact hnot (hpred a he)
      have hmem := hfree m hm hzero
      rw [hend, append_nil] at hmem
      exact hout hmem
    exact Nat.le_antisymm hsubperm.length_le ((nodup_dedup _).subperm hall).length_le

/-- `peel` is one such run, up to its fuel. -/
theorem peel_visits : ∀ (fuel : ℕ) (s : Traversal α), ∃ t, ReflTransGen (Visits edges) s t
      ∧ t.visited.length = peel edges fuel s.degree s.roots s.visited.length
      ∧ (t.roots = [] ∨ t.visited.length = s.visited.length + fuel) := by
  intro fuel
  induction fuel with
  | zero => exact fun s => ⟨s, .refl, rfl, .inr rfl⟩
  | succ fuel ih =>
    rintro ⟨degree, roots, visited⟩
    cases roots with
    | nil => exact ⟨_, .refl, rfl, .inl rfl⟩
    | cons node rest =>
      obtain ⟨t, hrun, hlen, hend⟩ := ih ⟨_, _, node :: visited⟩
      refine ⟨t, .head (.pop (.refl _) (.refl _)) hrun, hlen, hend.imp id fun h => ?_⟩
      exact h.trans (Nat.succ_add_eq_add_succ _ _)

theorem edge_dedup (edges : List (α × α)) : Edge edges.dedup = Edge edges := by
  funext a b
  exact propext mem_dedup

/-- The fuel lasts: no more nodes are visited than there are. -/
theorem hasCycle_eq_false_iff : hasCycle edges = false ↔ Acyclic (Edge edges) := by
  have hnd : edges.dedup.Nodup := nodup_dedup edges
  obtain ⟨t, hrun, hlen, hend⟩ := peel_visits (nodes edges.dedup).length (.start edges.dedup)
  obtain ⟨hpeel, -⟩ := Traversal.peeling hnd hrun
  have hroots : t.roots = [] := by
    refine hend.elim id fun hall => ?_
    have hle := (hpeel.nodup.subperm hpeel.subset).length_le
    rw [length_append, hall, Traversal.start, length_nil] at hle
    exact length_eq_zero_iff.mp (by omega)
  rw [← edge_dedup, ← Traversal.visited_all_iff hnd hrun hroots, hlen]
  exact decide_eq_false_iff_not.trans not_not

end Peel

end Digraph
