import Mathlib.Data.List.Nodup
import Mathlib.Data.List.Perm.Subperm
import Mathlib.Logic.Relation

/-!
# Depth-first search for a cycle

`visit` walks from a node to its successors.  `visiting` holds the nodes on the way from the
root, `visited` the nodes that are finished with, the last one first.  A successor that is
still being visited closes a cycle.

The list of finished nodes is ordered: all successors of a node stand behind it.  A search
that succeeds leaves such a list with every root in it, and no node of an ordered list reaches
itself.  Conversely a search without a cycle below it neither meets a node twice on its way
nor runs deeper than there are nodes.

`search` is the same walk over a dictionary of successors, and it tells its failures apart: a
cycle, a node that is not in the dictionary, and a recursion that is deeper than a bound.  Only
the first of these happens when the dictionary is closed and the bound exceeds the number of nodes.
`Descends` says how deep the walk goes in a graph without a cycle.
-/

namespace BaseAgent
namespace Graphs

open Relation

variable {α : Type} [DecidableEq α] (next : α → List α)

/-- The finished nodes after a visit, or nothing when it met a cycle. -/
def visit : Nat → List α → List α → α → Option (List α)
  | 0, _, _, _ => none
  | fuel + 1, visiting, visited, x =>
    if x ∈ visiting then none
    else if x ∈ visited then some visited
    else ((next x).foldlM (visit fuel (x :: visiting)) visited).map (x :: ·)

def acyclic (nodes : List α) : Bool :=
  (nodes.foldlM (visit next (nodes.length + 1) []) []).isSome

/-- The successors of every node stand behind it. -/
def Ordered : List α → Prop
  | [] => True
  | x :: rest => (∀ y ∈ next x, y ∈ rest) ∧ x ∉ rest ∧ Ordered rest

abbrev Edge (a b : α) : Prop := b ∈ next a

variable {next}

omit [DecidableEq α] in
theorem Ordered.edge {l : List α} (h : Ordered next l) {a b : α} (ha : a ∈ l)
    (hb : b ∈ next a) : b ∈ l := by
  induction l with
  | nil => cases ha
  | cons x rest ih =>
    cases List.mem_cons.mp ha with
    | inl hx =>
      subst hx
      exact List.mem_cons_of_mem _ (h.1 b hb)
    | inr hrest => exact List.mem_cons_of_mem _ (ih h.2.2 hrest)

omit [DecidableEq α] in
theorem Ordered.reach {l : List α} (h : Ordered next l) {a b : α} (ha : a ∈ l)
    (hab : TransGen (Edge next) a b) : b ∈ l := by
  induction hab with
  | single hb => exact h.edge ha hb
  | tail _ hb ih => exact h.edge ih hb

theorem Ordered.not_reach_self {l : List α} (h : Ordered next l) {a : α} (ha : a ∈ l) :
    ¬ TransGen (Edge next) a a := by
  induction l with
  | nil => cases ha
  | cons x rest ih =>
    intro haa
    by_cases hrest : a ∈ rest
    · exact ih h.2.2 hrest haa
    · have hx : a = x := by
        cases List.mem_cons.mp ha with
        | inl hx => exact hx
        | inr hmem => exact absurd hmem hrest
      -- the first step leads behind `x`, from where nothing leads back
      obtain ⟨b, hab, hba⟩ := TransGen.head'_iff.mp haa
      have hb : b ∈ rest := h.1 b (hx ▸ hab)
      cases reflTransGen_iff_eq_or_transGen.mp hba with
      | inl heq => exact hrest (heq ▸ hb)
      | inr htrans => exact hrest (h.2.2.reach hb htrans)

/-- What a visit that succeeds does to the finished nodes. -/
structure Extends (next : α → List α) (visiting visited seen : List α) : Prop where
  ordered : Ordered next seen
  kept : ∀ y ∈ visited, y ∈ seen
  fresh : ∀ y ∈ seen, y ∈ visited ∨ y ∉ visiting

omit [DecidableEq α] in
theorem Extends.refl {visiting visited : List α} (h : Ordered next visited) :
    Extends next visiting visited visited :=
  ⟨h, fun _ hy => hy, fun _ hy => .inl hy⟩

omit [DecidableEq α] in
theorem Extends.trans {visiting a b c : List α} (hab : Extends next visiting a b)
    (hbc : Extends next visiting b c) : Extends next visiting a c where
  ordered := hbc.ordered
  kept y hy := hbc.kept y (hab.kept y hy)
  fresh y hy := (hbc.fresh y hy).elim (hab.fresh y) .inr

omit [DecidableEq α] in
theorem foldlM_extends {visiting : List α} {f : List α → α → Option (List α)}
    (hf : ∀ visited y seen, Ordered next visited → f visited y = some seen →
      Extends next visiting visited seen ∧ y ∈ seen)
    {ys visited seen : List α} (hv : Ordered next visited)
    (h : ys.foldlM f visited = some seen) :
    Extends next visiting visited seen ∧ ∀ y ∈ ys, y ∈ seen := by
  induction ys generalizing visited with
  | nil =>
    cases h
    exact ⟨Extends.refl hv, fun y hy => by cases hy⟩
  | cons y ys ih =>
    rw [List.foldlM_cons] at h
    obtain ⟨mid, hmid, hrest⟩ := Option.bind_eq_some_iff.mp h
    obtain ⟨hfirst, hy⟩ := hf visited y mid hv hmid
    obtain ⟨hlater, hys⟩ := ih hfirst.ordered hrest
    refine ⟨hfirst.trans hlater, fun z hz => ?_⟩
    cases List.mem_cons.mp hz with
    | inl hzy => exact hzy ▸ hlater.kept y hy
    | inr hz => exact hys z hz

theorem visit_extends {fuel : Nat} {visiting visited seen : List α} {x : α}
    (hv : Ordered next visited) (h : visit next fuel visiting visited x = some seen) :
    Extends next visiting visited seen ∧ x ∈ seen := by
  induction fuel generalizing visiting visited seen x with
  | zero => cases h
  | succ fuel ih =>
    rw [visit] at h
    split at h
    · cases h
    · rename_i hvisiting
      split at h
      · rename_i hvisited
        cases h
        exact ⟨Extends.refl hv, hvisited⟩
      · rename_i hvisited
        obtain ⟨below, hbelow, rfl⟩ := Option.map_eq_some_iff.mp h
        obtain ⟨hext, hnext⟩ := foldlM_extends (fun _ _ _ => ih) hv hbelow
        -- `x` was on the way while its successors were visited
        have hx : x ∉ below := fun hx =>
          (hext.fresh x hx).elim hvisited fun hnot => hnot (List.mem_cons_self ..)
        refine ⟨⟨⟨hnext, hx, hext.ordered⟩, fun y hy => ?_, fun y hy => ?_⟩, List.mem_cons_self ..⟩
        · exact List.mem_cons_of_mem _ (hext.kept y hy)
        · cases List.mem_cons.mp hy with
          | inl hyx => exact .inr (hyx ▸ hvisiting)
          | inr hy =>
            cases hext.fresh y hy with
            | inl hold => exact .inl hold
            | inr hnew => exact .inr fun hmem => hnew (List.mem_cons_of_mem _ hmem)

omit [DecidableEq α] in
theorem foldlM_isSome {f : List α → α → Option (List α)} {ys : List α}
    (hf : ∀ y ∈ ys, ∀ visited, (f visited y).isSome = true) (visited : List α) :
    (ys.foldlM f visited).isSome = true := by
  induction ys generalizing visited with
  | nil => rfl
  | cons y ys ih =>
    obtain ⟨mid, hmid⟩ := Option.isSome_iff_exists.mp (hf y (List.mem_cons_self ..) visited)
    rw [List.foldlM_cons, hmid]
    exact ih (fun z hz => hf z (List.mem_cons_of_mem _ hz)) mid

/-- A visit with no cycle below it succeeds, when the fuel covers the nodes that are not on
the way. -/
theorem visit_isSome {nodes : List α} (hclosed : ∀ x ∈ nodes, ∀ y ∈ next x, y ∈ nodes)
    (hacyclic : ∀ x ∈ nodes, ¬ TransGen (Edge next) x x) {fuel : Nat} {visiting : List α}
    (visited : List α) {x : α} (hx : x ∈ nodes) (hnodup : visiting.Nodup)
    (hsub : visiting ⊆ nodes) (hpath : ∀ z ∈ visiting, TransGen (Edge next) z x)
    (hfuel : nodes.length < fuel + visiting.length) :
    (visit next fuel visiting visited x).isSome = true := by
  induction fuel generalizing visiting visited x with
  | zero =>
    have hle := (hnodup.subperm hsub).length_le
    omega
  | succ fuel ih =>
    have hnot : x ∉ visiting := fun hmem => hacyclic x hx (hpath x hmem)
    rw [visit, if_neg hnot]
    by_cases hvisited : x ∈ visited
    · rw [if_pos hvisited]
      rfl
    · rw [if_neg hvisited, Option.isSome_map]
      apply foldlM_isSome
      intro y hy start
      apply ih start (hclosed x hx y hy) (List.nodup_cons.mpr ⟨hnot, hnodup⟩)
        (List.cons_subset.mpr ⟨hx, hsub⟩)
      · intro z hz
        cases List.mem_cons.mp hz with
        | inl hzx => exact hzx ▸ TransGen.single hy
        | inr hz => exact (hpath z hz).tail hy
      · rw [List.length_cons]
        omega

/-- The visits from every node are exact on a set of nodes that contains its successors. -/
theorem foldlM_visit_isSome {nodes : List α} (hclosed : ∀ x ∈ nodes, ∀ y ∈ next x, y ∈ nodes)
    {fuel : Nat} (hfuel : nodes.length < fuel) :
    (nodes.foldlM (visit next fuel []) []).isSome = true ↔
      ∀ x ∈ nodes, ¬ TransGen (Edge next) x x := by
  constructor
  · intro h x hx
    obtain ⟨seen, hseen⟩ := Option.isSome_iff_exists.mp h
    have hstart : Ordered next [] := trivial
    obtain ⟨hext, hmem⟩ := foldlM_extends (fun _ _ _ => visit_extends) hstart hseen
    exact hext.ordered.not_reach_self (hmem x hx)
  · intro h
    apply foldlM_isSome
    intro y hy start
    apply visit_isSome hclosed h start hy List.nodup_nil (List.nil_subset _)
    · intro z hz
      cases hz
    · simpa using hfuel

/-- The search is exact on a set of nodes that contains its successors. -/
theorem acyclic_iff {nodes : List α} (hclosed : ∀ x ∈ nodes, ∀ y ∈ next x, y ∈ nodes) :
    acyclic next nodes = true ↔ ∀ x ∈ nodes, ¬ TransGen (Edge next) x x :=
  foldlM_visit_isSome hclosed (Nat.lt_succ_self _)

/-! ## The search over a dictionary -/

inductive Failure (α : Type) where
  | cycle
  | missing (x : α)
  | depth
  deriving DecidableEq, Repr

section Search

variable (entry : α → Option (List α))

/-- `visit` with a dictionary of successors and a bound on the recursion. -/
def search : Nat → List α → List α → α → Except (Failure α) (List α)
  | 0, _, _, _ => .error .depth
  | bound + 1, visiting, visited, x =>
    if x ∈ visiting then .error .cycle
    else if x ∈ visited then .ok visited
    else
      match entry x with
      | none => .error (.missing x)
      | some successors =>
        (successors.foldlM (search bound (x :: visiting)) visited).map (x :: ·)

def orCycle : Option (List α) → Except (Failure α) (List α)
  | some seen => .ok seen
  | none => .error .cycle

variable {entry}

omit [DecidableEq α] in
theorem foldlM_orCycle {f : List α → α → Except (Failure α) (List α)}
    {g : List α → α → Option (List α)} {ys : List α}
    (h : ∀ y ∈ ys, ∀ visited, f visited y = orCycle (g visited y)) (visited : List α) :
    ys.foldlM f visited = orCycle (ys.foldlM g visited) := by
  induction ys generalizing visited with
  | nil => rfl
  | cons y ys ih =>
    rw [List.foldlM_cons, List.foldlM_cons, h y List.mem_cons_self]
    cases g visited y with
    | none => rfl
    | some seen => exact ih (fun z hz => h z (List.mem_cons_of_mem y hz)) seen

/-- A search among the nodes of a closed dictionary, with a bound that covers the nodes that are
not on the way, is a visit. -/
theorem search_eq_visit {nodes : List α}
    (hentry : ∀ x ∈ nodes, ∃ successors, entry x = some successors ∧
      ∀ y ∈ successors, y ∈ nodes)
    {bound : Nat} {visiting : List α} (visited : List α) {x : α} (hx : x ∈ nodes)
    (hnodup : visiting.Nodup) (hsub : visiting ⊆ nodes)
    (hbound : nodes.length < bound + visiting.length) :
    search entry bound visiting visited x =
      orCycle (visit (fun y => (entry y).getD []) bound visiting visited x) := by
  induction bound generalizing visiting visited x with
  | zero =>
    have hle := (hnodup.subperm hsub).length_le
    omega
  | succ bound ih =>
    rw [search, visit]
    by_cases hvisiting : x ∈ visiting
    · rw [if_pos hvisiting, if_pos hvisiting]
      rfl
    rw [if_neg hvisiting, if_neg hvisiting]
    by_cases hvisited : x ∈ visited
    · rw [if_pos hvisited, if_pos hvisited]
      rfl
    rw [if_neg hvisited, if_neg hvisited]
    obtain ⟨successors, hsuccessors, hclosed⟩ := hentry x hx
    have hbelow : ∀ y ∈ successors, ∀ start, search entry bound (x :: visiting) start y =
        orCycle (visit (fun z => (entry z).getD []) bound (x :: visiting) start y) := by
      intro y hy start
      apply ih start (hclosed y hy) (List.nodup_cons.mpr ⟨hvisiting, hnodup⟩)
        (List.cons_subset.mpr ⟨hx, hsub⟩)
      rw [List.length_cons]
      omega
    rw [hsuccessors]
    simp only [Option.getD_some]
    rw [foldlM_orCycle hbelow]
    cases successors.foldlM (visit (fun z => (entry z).getD []) bound (x :: visiting)) visited with
    | none => rfl
    | some seen => rfl

/-- The searches from every node of a closed dictionary succeed or meet a cycle. -/
theorem foldlM_search {nodes : List α}
    (hentry : ∀ x ∈ nodes, ∃ successors, entry x = some successors ∧
      ∀ y ∈ successors, y ∈ nodes)
    {bound : Nat} (hbound : nodes.length < bound) :
    nodes.foldlM (search entry bound []) [] =
      orCycle (nodes.foldlM (visit (fun y => (entry y).getD []) bound []) []) := by
  apply foldlM_orCycle
  intro y hy start
  apply search_eq_visit hentry start hy List.nodup_nil (List.nil_subset _)
  simpa using hbound

/-! ### How deep the search goes -/

section Deeper

omit [DecidableEq α] in
/-- Where a fold of searches does not run out of levels, neither do deeper ones. -/
theorem foldlM_deeper {f g : List α → α → Except (Failure α) (List α)}
    (hfg : ∀ visited y, f visited y ≠ .error .depth → g visited y = f visited y) {ys : List α}
    (visited : List α) (h : ys.foldlM f visited ≠ .error .depth) :
    ys.foldlM g visited = ys.foldlM f visited := by
  induction ys generalizing visited with
  | nil => rfl
  | cons y ys ih =>
    rw [List.foldlM_cons] at h ⊢
    have hfirst : f visited y ≠ .error .depth := by
      intro hdepth
      rw [hdepth] at h
      exact h rfl
    rw [List.foldlM_cons, hfg visited y hfirst]
    cases hseen : f visited y with
    | error e => rfl
    | ok seen =>
      rw [hseen] at h
      exact ih seen h

theorem search_deeper {bound : Nat} (more : Nat) {visiting visited : List α} {x : α}
    (h : search entry bound visiting visited x ≠ .error .depth) :
    search entry (bound + more) visiting visited x = search entry bound visiting visited x := by
  induction bound generalizing visiting visited x with
  | zero => exact absurd rfl h
  | succ bound ih =>
    rw [Nat.add_right_comm]
    rw [search] at h ⊢
    rw [search]
    by_cases hvisiting : x ∈ visiting
    · rw [if_pos hvisiting, if_pos hvisiting]
    rw [if_neg hvisiting] at h ⊢
    rw [if_neg hvisiting]
    by_cases hvisited : x ∈ visited
    · rw [if_pos hvisited, if_pos hvisited]
    rw [if_neg hvisited] at h ⊢
    rw [if_neg hvisited]
    cases hentry : entry x with
    | none => rfl
    | some successors =>
      simp only [hentry] at h ⊢
      have hfold : successors.foldlM (search entry bound (x :: visiting)) visited ≠
          .error .depth := by
        intro hdepth
        rw [hdepth] at h
        exact h rfl
      rw [foldlM_deeper (fun _ _ => ih) visited hfold]

end Deeper

/-- A walk from a node makes this many visits inside each other.  What is `done` is not entered
again, and the successors in front of the one that is entered are done with all they reach. -/
inductive Descends (next : α → List α) : (α → Prop) → α → Nat → Prop
  | call {done : α → Prop} {x : α} : Descends next done x 1
  | deeper {done : α → Prop} {x y : α} {before after : List α} {n : Nat} (hnew : ¬ done x)
      (hnext : next x = before ++ y :: after)
      (hdescends : Descends next
        (fun z => done z ∨ ∃ b ∈ before, ReflTransGen (Edge next) b z) y n) :
      Descends next done x (n + 1)

/-- What comes of a walk: all it reaches is done, and it has stayed within the bound, or it has not
and was given up. -/
def Walked (bound : Nat) (done reached : α → Prop) (levels : Nat → Prop) :
    Except (Failure α) (List α) → Prop
  | .ok seen => (∀ z, z ∈ seen ↔ done z ∨ reached z) ∧ ∀ n, levels n → n ≤ bound
  | .error e => e = .depth ∧ ∃ n, levels n ∧ bound < n

def DescendsAny (next : α → List α) (done : α → Prop) (ys : List α) (n : Nat) : Prop :=
  ∃ before y after, ys = before ++ y :: after ∧
    Descends next (fun z => done z ∨ ∃ b ∈ before, ReflTransGen (Edge next) b z) y n

section Walks

variable {next : α → List α}

omit [DecidableEq α] in
theorem descendsAny_cons {done : α → Prop} {y : α} {ys : List α} {n : Nat} :
    DescendsAny next done (y :: ys) n ↔ Descends next done y n ∨
      DescendsAny next (fun z => done z ∨ ReflTransGen (Edge next) y z) ys n := by
  have hnone : (fun z => done z ∨ ∃ b ∈ ([] : List α), ReflTransGen (Edge next) b z) = done := by
    simp
  have hcons : ∀ before : List α,
      (fun z => done z ∨ ∃ b ∈ y :: before, ReflTransGen (Edge next) b z) =
        fun z => (done z ∨ ReflTransGen (Edge next) y z) ∨
          ∃ b ∈ before, ReflTransGen (Edge next) b z := by
    intro before
    funext z
    simp only [List.exists_mem_cons_iff, or_assoc]
  unfold DescendsAny
  constructor
  · intro h
    obtain ⟨before, x, after, hsplit, hdescends⟩ := h
    cases before with
    | nil =>
      rw [List.nil_append, List.cons.injEq] at hsplit
      rw [hnone, ← hsplit.1] at hdescends
      exact .inl hdescends
    | cons first before =>
      rw [List.cons_append, List.cons.injEq] at hsplit
      rw [← hsplit.1, hcons] at hdescends
      exact .inr ⟨before, x, after, hsplit.2, hdescends⟩
  · intro h
    cases h with
    | inl hfirst => exact ⟨[], y, ys, rfl, by rwa [hnone]⟩
    | inr hrest =>
      obtain ⟨before, x, after, hsplit, hdescends⟩ := hrest
      exact ⟨y :: before, x, after, by rw [hsplit]; rfl, by rwa [hcons]⟩

omit [DecidableEq α] in
theorem foldlM_walked {bound : Nat} {f : List α → α → Except (Failure α) (List α)} {ys : List α}
    (hf : ∀ y ∈ ys, ∀ (done : α → Prop) visited, (∀ z w, done z → Edge next z w → done w) →
      (∀ z, z ∈ visited ↔ done z) →
        Walked bound done (ReflTransGen (Edge next) y) (Descends next done y) (f visited y))
    {done : α → Prop} (hclosed : ∀ z w, done z → Edge next z w → done w) {visited : List α}
    (hvisited : ∀ z, z ∈ visited ↔ done z) :
    Walked bound done (fun z => ∃ y ∈ ys, ReflTransGen (Edge next) y z) (DescendsAny next done ys)
      (ys.foldlM f visited) := by
  induction ys generalizing done visited with
  | nil =>
    refine ⟨fun z => by simp [hvisited], fun n hn => ?_⟩
    obtain ⟨before, y, after, hsplit, -⟩ := hn
    simp at hsplit
  | cons y ys ih =>
    have hfirst := hf y List.mem_cons_self done visited hclosed hvisited
    rw [List.foldlM_cons]
    cases hseen : f visited y with
    | error e =>
      rw [hseen] at hfirst
      obtain ⟨hdepth, n, hn, hbound⟩ := hfirst
      exact ⟨hdepth, n, descendsAny_cons.mpr (.inl hn), hbound⟩
    | ok seen =>
      rw [hseen] at hfirst
      obtain ⟨hreached, hlevels⟩ := hfirst
      have hnow : ∀ z w, (done z ∨ ReflTransGen (Edge next) y z) → Edge next z w →
          (done w ∨ ReflTransGen (Edge next) y w) := by
        intro z w hz hedge
        cases hz with
        | inl hdone => exact .inl (hclosed z w hdone hedge)
        | inr hreach => exact .inr (hreach.tail hedge)
      have hrest := ih (fun x hx => hf x (List.mem_cons_of_mem y hx)) hnow hreached
      show Walked _ _ _ _ (ys.foldlM f seen)
      cases hlast : ys.foldlM f seen with
      | error e =>
        rw [hlast] at hrest
        obtain ⟨hdepth, n, hn, hbound⟩ := hrest
        exact ⟨hdepth, n, descendsAny_cons.mpr (.inr hn), hbound⟩
      | ok all =>
        rw [hlast] at hrest
        obtain ⟨hall, hothers⟩ := hrest
        refine ⟨fun z => ?_, fun n hn => ?_⟩
        · rw [hall]
          simp only [List.exists_mem_cons_iff, or_assoc]
        · cases descendsAny_cons.mp hn with
          | inl hdescends => exact hlevels n hdescends
          | inr hdescends => exact hothers n hdescends

/-- The search finishes with what a node reaches, unless it goes deeper than the bound. -/
theorem search_walked {nodes : List α}
    (hentry : ∀ x ∈ nodes, ∃ successors, entry x = some successors ∧
      ∀ y ∈ successors, y ∈ nodes)
    (hnext : next = fun y => (entry y).getD [])
    (hacyclic : ∀ x ∈ nodes, ¬ TransGen (Edge next) x x) {bound : Nat} {visiting visited : List α}
    {x : α} (hx : x ∈ nodes) (hpath : ∀ z ∈ visiting, TransGen (Edge next) z x)
    {done : α → Prop} (hclosed : ∀ z w, done z → Edge next z w → done w)
    (hvisited : ∀ z, z ∈ visited ↔ done z) :
    Walked bound done (ReflTransGen (Edge next) x) (Descends next done x)
      (search entry bound visiting visited x) := by
  induction bound generalizing visiting visited x done with
  | zero => exact ⟨rfl, 1, .call, Nat.one_pos⟩
  | succ bound ih =>
    rw [search, if_neg fun hmem => hacyclic x hx (hpath x hmem)]
    by_cases hdone : x ∈ visited
    · rw [if_pos hdone]
      have hold : ∀ z, ReflTransGen (Edge next) x z → done z := by
        intro z hreach
        induction hreach with
        | refl => exact (hvisited x).mp hdone
        | tail _ hedge hbefore => exact hclosed _ _ hbefore hedge
      refine ⟨fun z => ?_, fun n hn => ?_⟩
      · rw [hvisited]
        exact ⟨.inl, fun h => h.elim id (hold z)⟩
      · cases hn with
        | call => omega
        | deeper hnew => exact absurd ((hvisited x).mp hdone) hnew
    · rw [if_neg hdone]
      obtain ⟨successors, hsuccessors, hknown⟩ := hentry x hx
      have hsame : next x = successors := by
        rw [hnext]
        simp [hsuccessors]
      have hbelow : Walked bound done (fun z => ∃ y ∈ successors, ReflTransGen (Edge next) y z)
          (DescendsAny next done successors)
          (successors.foldlM (search entry bound (x :: visiting)) visited) := by
        refine foldlM_walked (fun y hy done' visited' hclosed' hvisited' => ?_) hclosed hvisited
        have hedge : Edge next x y := by
          show y ∈ next x
          rw [hsame]
          exact hy
        refine ih (hknown y hy) (fun z hz => ?_) hclosed' hvisited'
        cases List.mem_cons.mp hz with
        | inl hzx => exact hzx ▸ TransGen.single hedge
        | inr hz => exact (hpath z hz).tail hedge
      simp only [hsuccessors]
      cases hseen : successors.foldlM (search entry bound (x :: visiting)) visited with
      | error e =>
        rw [hseen] at hbelow
        obtain ⟨hdepth, n, ⟨before, y, after, hsplit, hdescends⟩, hbound⟩ := hbelow
        refine ⟨hdepth, n + 1, ?_, by omega⟩
        exact .deeper (fun h => hdone ((hvisited x).mpr h)) (hsame.trans hsplit) hdescends
      | ok seen =>
        rw [hseen] at hbelow
        obtain ⟨hreached, hlevels⟩ := hbelow
        refine ⟨fun z => ?_, fun n hn => ?_⟩
        · rw [List.mem_cons, hreached, ReflTransGen.cases_head_iff (a := x)]
          have hfirst : (∃ y, Edge next x y ∧ ReflTransGen (Edge next) y z) ↔
              ∃ y ∈ successors, ReflTransGen (Edge next) y z := by
            rw [← hsame]
          rw [hfirst, eq_comm (a := z)]
          exact or_left_comm
        · cases hn with
          | call => omega
          | deeper hnew hsplit hdescends =>
            exact Nat.succ_le_succ (hlevels _ ⟨_, _, _, hsame.symm.trans hsplit, hdescends⟩)

/-- The searches from every node of a closed dictionary without a cycle. -/
theorem foldlM_search_walked {nodes : List α}
    (hentry : ∀ x ∈ nodes, ∃ successors, entry x = some successors ∧
      ∀ y ∈ successors, y ∈ nodes)
    (hnext : next = fun y => (entry y).getD [])
    (hacyclic : ∀ x ∈ nodes, ¬ TransGen (Edge next) x x) (bound : Nat) :
    Walked bound (fun _ => False) (fun z => ∃ y ∈ nodes, ReflTransGen (Edge next) y z)
      (DescendsAny next (fun _ => False) nodes) (nodes.foldlM (search entry bound []) []) := by
  refine foldlM_walked (fun y hy done visited hclosed hvisited => ?_) (fun _ _ h => h.elim) (by simp)
  exact search_walked hentry hnext hacyclic hy (fun z hz => by cases hz) hclosed hvisited

end Walks

end Search

/-! ## Sources -/

theorem exists_source {β : Type} {r : β → β → Prop} (hacyclic : ∀ x, ¬ TransGen r x x)
    {nodes : List β} (hsome : nodes ≠ []) : ∃ x ∈ nodes, ∀ y ∈ nodes, ¬ TransGen r x y := by
  induction nodes with
  | nil => exact absurd rfl hsome
  | cons first rest ih =>
    by_cases hrest : rest = []
    · rw [hrest]
      refine ⟨first, List.mem_cons_self, fun y hy => ?_⟩
      rw [List.mem_singleton.mp hy]
      exact hacyclic first
    · obtain ⟨x, hx, hsource⟩ := ih hrest
      by_cases hfirst : TransGen r x first
      · -- what `first` reaches, `x` reaches through it
        refine ⟨first, List.mem_cons_self, fun y hy hreach => ?_⟩
        rcases List.mem_cons.mp hy with hsame | hrest
        · rw [hsame] at hreach
          exact hacyclic first hreach
        · exact hsource y hrest (hfirst.trans hreach)
      · refine ⟨x, List.mem_cons_of_mem _ hx, fun y hy => ?_⟩
        rcases List.mem_cons.mp hy with hsame | hrest
        · rw [hsame]
          exact hfirst
        · exact hsource y hrest

end Graphs
end BaseAgent
