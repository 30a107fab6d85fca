import Lpc17xx.Link.Sequence
import Mathlib.Data.List.Nodup
import Mathlib.Logic.Function.Basic
import Mathlib.Tactic.Common

/-!
# Rings of links

A list as it lies in memory: its head and its nodes are joined in a ring, each pointing to
the one behind it and to the one before it.  The operations write links and know nothing
of rings; here each is shown to turn one ring into another and to leave alone what is not
on it.
-/

namespace Lpc17xx.Link

universe u v

variable {α : Type u}

/-- The two pointers of every node. -/
structure Links (α : Type u) where
  next : α → α
  prev : α → α

namespace Links

/-- By `next` from `first` through `nodes` to `last`, and by `prev` back. -/
def Path (links : Links α) (first : α) : List α → α → Prop
  | [], last => links.next first = last ∧ links.prev last = first
  | node :: nodes, last =>
      (links.next first = node ∧ links.prev node = first) ∧ Path links node nodes last

/-- A head and its nodes in a ring, no two of them the same. -/
structure Ring (links : Links α) (head : α) (nodes : List α) : Prop where
  path : links.Path head nodes head
  nodup : (head :: nodes).Nodup

/-- The links read the other way round. -/
def reversed (links : Links α) : Links α where
  next := links.prev
  prev := links.next

section Operations

variable [DecidableEq α]

/-- `_list_add`. -/
def listAddBetween (links : Links α) (new prev next : α) : Links α where
  next := Function.update (Function.update links.next new next) prev new
  prev := Function.update (Function.update links.prev next new) new prev

/-- `list_add`. -/
def listAdd (links : Links α) (new head : α) : Links α :=
  links.listAddBetween new head (links.next head)

/-- `list_add_tail`. -/
def listAddTail (links : Links α) (new head : α) : Links α :=
  links.listAddBetween new (links.prev head) head

/-- `list_del`.  The links of the entry are set to `null` afterwards. -/
def listDel (links : Links α) (null entry : α) : Links α :=
  let links := { links with
    next := Function.update links.next (links.prev entry) (links.next entry) }
  let links := { links with
    prev := Function.update links.prev (links.next entry) (links.prev entry) }
  { next := Function.update links.next entry null
    prev := Function.update links.prev entry null }

/-- The nodes that a loop from `pos` comes by before it is back at the head, in at most
`rounds` rounds. -/
def visited (links : Links α) (head : α) : Nat → α → Option (List α)
  | 0, pos => if pos = head then some [] else none
  | rounds + 1, pos =>
      if pos = head then some []
      else (links.visited head rounds (links.next pos)).map (pos :: ·)

/-- The loop of `list_for_each`, with a body that leaves the list alone. -/
def listForEach (links : Links α) (head : α) (rounds : Nat) : Option (List α) :=
  links.visited head rounds (links.next head)

/-- The rounds of a `list_for_each` that returns the first node it wants, from `pos` on. -/
def searchFrom (links : Links α) (head : α) (wanted : α → Bool) : Nat → α → Option (Option α)
  | 0, pos => if pos = head then some none else none
  | rounds + 1, pos =>
      if pos = head then some none
      else if wanted pos then some (some pos)
      else searchFrom links head wanted rounds (links.next pos)

/-- A `list_for_each` that returns the first node it wants, if it comes by one. -/
def search (links : Links α) (head : α) (wanted : α → Bool) (rounds : Nat) :
    Option (Option α) :=
  links.searchFrom head wanted rounds (links.next head)

section Safe

variable {σ : Type v} (linksOf : σ → Links α) (body : α → σ → Option (σ × Bool)) (head : α)

/-- The rounds of `list_for_each_safe` from `pos` on, with `n` read ahead.  The body tells
whether it leaves the loop. -/
def roundsSafe : Nat → α → α → σ → Option σ
  | 0, pos, _, s => if pos = head then some s else none
  | rounds + 1, pos, n, s =>
      if pos = head then some s
      else (body pos s).bind fun (s, leaves) =>
        if leaves then some s else roundsSafe rounds n ((linksOf s).next n) s

/-- The loop of `list_for_each_safe`, with a body that may delete the entry it is given. -/
def listForEachSafe (rounds : Nat) (s : σ) : Option σ :=
  let pos := (linksOf s).next head
  roundsSafe linksOf body head rounds pos ((linksOf s).next pos) s

/-- The body on one node after the other, until it leaves the loop. -/
def foldUntil : List α → σ → Option σ
  | [], s => some s
  | node :: nodes, s =>
      (body node s).bind fun (s, leaves) => if leaves then some s else foldUntil nodes s

end Safe

end Operations

section Path

variable {links links' : Links α} {first middle last : α} {nodes before behind : List α}

/-- Paths are put together, and taken apart, at any node. -/
theorem path_append : links.Path first (before ++ middle :: behind) last ↔
    links.Path first before middle ∧ links.Path middle behind last := by
  induction before generalizing first with
  | nil => exact Iff.rfl
  | cons node before ih =>
      constructor
      · rintro ⟨joined, rest⟩
        rcases ih.mp rest with ⟨left, right⟩
        exact ⟨⟨joined, left⟩, right⟩
      · rintro ⟨⟨joined, left⟩, right⟩
        exact ⟨joined, ih.mpr ⟨left, right⟩⟩

/-- Only the links along the path count. -/
theorem Path.congr (path : links.Path first nodes last)
    (next : ∀ node ∈ first :: nodes, links'.next node = links.next node)
    (prev : ∀ node, node ∈ nodes ∨ node = last → links'.prev node = links.prev node) :
    links'.Path first nodes last := by
  induction nodes generalizing first with
  | nil =>
      rcases path with ⟨forth, back⟩
      constructor
      · rw [next first List.mem_cons_self]
        exact forth
      · rw [prev last (.inr rfl)]
        exact back
  | cons node nodes ih =>
      rcases path with ⟨⟨forth, back⟩, rest⟩
      refine ⟨⟨?_, ?_⟩, ih rest ?_ ?_⟩
      · rw [next first List.mem_cons_self]
        exact forth
      · rw [prev node (.inl List.mem_cons_self)]
        exact back
      · intro other member
        exact next other (List.mem_cons_of_mem first member)
      · rintro other (member | same)
        · exact prev other (.inl (List.mem_cons_of_mem node member))
        · exact prev other (.inr same)

/-- A path back is a path of the reversed links. -/
theorem Path.reversed (path : links.Path first nodes last) :
    links.reversed.Path last nodes.reverse first := by
  induction nodes generalizing first with
  | nil => exact ⟨path.2, path.1⟩
  | cons node nodes ih =>
      rcases path with ⟨⟨forth, back⟩, rest⟩
      rw [List.reverse_cons]
      exact path_append.mpr ⟨ih rest, back, forth⟩

theorem Path.prev_mem (path : links.Path first nodes last) :
    links.prev last ∈ first :: nodes := by
  induction nodes generalizing first with
  | nil => exact path.2 ▸ List.mem_cons_self
  | cons node nodes ih => exact List.mem_cons_of_mem first (ih path.2)

theorem Path.next_mem (path : links.Path first nodes last) :
    links.next first ∈ nodes ∨ links.next first = last := by
  cases nodes with
  | nil => exact .inr path.1
  | cons node nodes => exact .inl (path.1.1 ▸ List.mem_cons_self)

variable [DecidableEq α]

/-- A path is led to another end, by induction on its nodes. -/
theorem Path.redirect {target : α} (path : links.Path first nodes last)
    (nodup : (first :: nodes).Nodup) (apart : target ∉ nodes) :
    Path { next := Function.update links.next (links.prev last) target
           prev := Function.update links.prev target (links.prev last) }
      first nodes target := by
  induction nodes generalizing first with
  | nil =>
      rw [path.2]
      exact ⟨Function.update_self _ _ _, Function.update_self _ _ _⟩
  | cons node nodes ih =>
      rcases path with ⟨⟨forth, back⟩, rest⟩
      rcases List.nodup_cons.mp nodup with ⟨fresh, others⟩
      have elsewhere : first ≠ links.prev last := by
        rintro rfl
        exact fresh rest.prev_mem
      have passed : node ≠ target := by
        rintro rfl
        exact apart List.mem_cons_self
      refine ⟨⟨?_, ?_⟩, ih rest others fun member => apart (List.mem_cons_of_mem node member)⟩
      · exact (Function.update_of_ne elsewhere _ _).trans forth
      · exact (Function.update_of_ne passed _ _).trans back

end Path

section Ring

variable {links links' : Links α} {head : α} {nodes before behind : List α}

/-- A head that points to itself is an empty ring. -/
theorem ring_nil (next : links.next head = head) (prev : links.prev head = head) :
    links.Ring head [] :=
  ⟨⟨next, prev⟩, List.nodup_singleton head⟩

/-- A ring is its links. -/
theorem Ring.congr (ring : links.Ring head nodes)
    (next : ∀ node ∈ head :: nodes, links'.next node = links.next node)
    (prev : ∀ node ∈ head :: nodes, links'.prev node = links.prev node) :
    links'.Ring head nodes := by
  refine ⟨ring.path.congr next ?_, ring.nodup⟩
  rintro node (member | rfl)
  · exact prev node (List.mem_cons_of_mem head member)
  · exact prev node List.mem_cons_self

theorem Ring.reversed (ring : links.Ring head nodes) :
    links.reversed.Ring head nodes.reverse := by
  refine ⟨ring.path.reversed, ?_⟩
  rcases List.nodup_cons.mp ring.nodup with ⟨headFresh, nodup⟩
  exact List.nodup_cons.mpr ⟨fun member => headFresh (List.mem_reverse.mp member),
    List.nodup_reverse.mpr nodup⟩

theorem Ring.next_head_mem (ring : links.Ring head nodes) : links.next head ∈ head :: nodes := by
  rcases ring.path.next_mem with member | same
  · exact List.mem_cons_of_mem head member
  · rw [same]
    exact List.mem_cons_self

/-- `list_empty` finds out whether there are nodes. -/
theorem Ring.next_head_eq_iff (ring : links.Ring head nodes) :
    links.next head = head ↔ nodes = [] := by
  cases nodes with
  | nil => exact ⟨fun _ => rfl, fun _ => ring.path.1⟩
  | cons node nodes =>
      have first : links.next head = node := ring.path.1.1
      constructor
      · intro same
        have member : links.next head ∈ node :: nodes := by
          rw [first]
          exact List.mem_cons_self
        exact absurd (same ▸ member) (List.nodup_cons.mp ring.nodup).1
      · intro empty
        contradiction

/-- The links of a node are those of its neighbours in the list. -/
theorem Ring.neighbours {entry : α} (ring : links.Ring head (before ++ entry :: behind)) :
    links.prev entry ∈ head :: before ∧
      (links.next entry ∈ behind ∨ links.next entry = head) := by
  rcases path_append.mp ring.path with ⟨left, right⟩
  exact ⟨left.prev_mem, right.next_mem⟩

variable [DecidableEq α] {new entry null : α}

theorem Ring.listAdd (ring : links.Ring head nodes) (fresh : new ∉ head :: nodes) :
    (links.listAdd new head).Ring head (new :: nodes) := by
  have notHead : new ≠ head := List.ne_of_not_mem_cons fresh
  have notNode : new ∉ nodes := List.not_mem_of_not_mem_cons fresh
  rcases List.nodup_cons.mp ring.nodup with ⟨headFresh, nodup⟩
  refine ⟨?_, List.nodup_cons.mpr ⟨?_, List.nodup_cons.mpr ⟨notNode, nodup⟩⟩⟩
  · cases nodes with
    | nil =>
        have first : links.next head = head := ring.path.1
        simp [Path, Links.listAdd, listAddBetween, first, notHead, Ne.symm notHead]
    | cons node nodes =>
        rcases ring.path with ⟨⟨first, _⟩, rest⟩
        have notFirst : new ≠ node := List.ne_of_not_mem_cons notNode
        have notRest : new ∉ nodes := List.not_mem_of_not_mem_cons notNode
        rcases List.nodup_cons.mp nodup with ⟨firstFresh, _⟩
        have headFirst : head ≠ node := List.ne_of_not_mem_cons headFresh
        refine ⟨⟨?_, ?_⟩, ⟨?_, ?_⟩, rest.congr ?_ ?_⟩
        · exact Function.update_self _ _ _
        · exact Function.update_self _ _ _
        · simp [Links.listAdd, listAddBetween, first, notHead]
        · simp [Links.listAdd, listAddBetween, first, Ne.symm notFirst]
        · intro other member
          have notNew : other ≠ new := fun same => notNode (same ▸ member)
          have behindHead : other ≠ head := fun same => headFresh (same ▸ member)
          simp [Links.listAdd, listAddBetween, notNew, behindHead]
        · rintro other (member | rfl)
          · have notNew : other ≠ new := fun same => notRest (same ▸ member)
            have behindFirst : other ≠ node := fun same => firstFresh (same ▸ member)
            simp [Links.listAdd, listAddBetween, first, notNew, behindFirst]
          · simp [Links.listAdd, listAddBetween, first, Ne.symm notHead, headFirst]
  · exact List.not_mem_cons_of_ne_of_not_mem (Ne.symm notHead) headFresh

/-- The entry's own `next` is there when it is read for the second time. -/
theorem next_kept (links : Links α) (entry : α) :
    Function.update links.next (links.prev entry) (links.next entry) entry = links.next entry := by
  by_cases same : entry = links.prev entry
  · rw [← same, Function.update_self]
  · exact Function.update_of_ne same _ _

/-- All that `list_del` writes. -/
theorem listDel_eq :
    links.listDel null entry =
      { next := Function.update (Function.update links.next (links.prev entry)
          (links.next entry)) entry null
        prev := Function.update (Function.update links.prev (links.next entry)
          (links.prev entry)) entry null } := by
  simp only [Links.listDel, next_kept]

theorem listDel_next_of_ne {other : α} (notEntry : other ≠ entry)
    (notPrev : other ≠ links.prev entry) :
    (links.listDel null entry).next other = links.next other := by
  rw [listDel_eq]
  exact (Function.update_of_ne notEntry _ _).trans (Function.update_of_ne notPrev _ _)

theorem listDel_prev_of_ne {other : α} (notEntry : other ≠ entry)
    (notNext : other ≠ links.next entry) :
    (links.listDel null entry).prev other = links.prev other := by
  rw [listDel_eq]
  exact (Function.update_of_ne notEntry _ _).trans (Function.update_of_ne notNext _ _)

/-- The path up to the entry is led to what was behind it. -/
theorem Path.listDel {first : α} (null : α) (left : links.Path first before entry)
    (nodup : (first :: before).Nodup) (fresh : entry ∉ first :: before)
    (notEntry : links.next entry ≠ entry) (notBefore : links.next entry ∉ before) :
    (links.listDel null entry).Path first before (links.next entry) := by
  rw [listDel_eq]
  refine (left.redirect nodup notBefore).congr ?_ ?_
  · intro node member
    exact Function.update_of_ne (ne_of_mem_of_not_mem member fresh) _ _
  · rintro node (member | rfl)
    · exact Function.update_of_ne
        (ne_of_mem_of_not_mem (List.mem_cons_of_mem first member) fresh) _ _
    · exact Function.update_of_ne notEntry _ _

theorem Ring.listDel (ring : links.Ring head (before ++ entry :: behind)) :
    (links.listDel null entry).Ring head (before ++ behind) := by
  rcases path_append.mp ring.path with ⟨left, right⟩
  rcases List.nodup_append.mp (List.cons_append ▸ ring.nodup) with
    ⟨nodupBefore, nodupBehind, disjoint⟩
  rcases List.nodup_cons.mp nodupBehind with ⟨entryFresh, nodupRest⟩
  have fresh : entry ∉ head :: before := fun member =>
    disjoint entry member entry List.mem_cons_self rfl
  have apart {node : α} (member : node ∈ head :: before) : node ∉ behind := fun other =>
    disjoint node member node (List.mem_cons_of_mem entry other) rfl
  have notHead : head ≠ entry := fun same => fresh (same ▸ List.mem_cons_self)
  constructor
  · cases behind with
    | nil =>
        have last : links.next entry = head := right.1
        rw [List.append_nil]
        have led := left.listDel null nodupBefore fresh
        rw [last] at led
        exact led notHead (List.nodup_cons.mp nodupBefore).1
    | cons node behind =>
        rcases right with ⟨⟨next, _⟩, rest⟩
        have notEntry : node ≠ entry := fun same => entryFresh (same ▸ List.mem_cons_self)
        have notBefore : node ∉ before := fun member =>
          apart (List.mem_cons_of_mem head member) List.mem_cons_self
        have led := left.listDel null nodupBefore fresh
        rw [next] at led
        refine path_append.mpr ⟨led notEntry notBefore, rest.congr ?_ ?_⟩
        · intro other member
          refine listDel_next_of_ne (ne_of_mem_of_not_mem member entryFresh) ?_
          exact (ne_of_mem_of_not_mem left.prev_mem fun there => apart there member).symm
        · intro other place
          refine listDel_prev_of_ne ?_ ?_
          · rcases place with member | rfl
            · exact ne_of_mem_of_not_mem (List.mem_cons_of_mem node member) entryFresh
            · exact notHead
          · rw [next]
            rcases place with member | rfl
            · exact ne_of_mem_of_not_mem member (List.nodup_cons.mp nodupRest).1
            · rintro rfl
              exact apart List.mem_cons_self List.mem_cons_self
  · refine List.cons_append ▸ List.nodup_append.mpr ⟨nodupBefore, nodupRest, ?_⟩
    rintro node member _ other rfl
    exact apart member other

/-- Deleting a node of the ring is deleting it from the sequence. -/
theorem Ring.listDel_of_mem (ring : links.Ring head nodes) (member : entry ∈ nodes) :
    (links.listDel null entry).Ring head (Link.listDel entry nodes) := by
  rcases List.append_of_mem member with ⟨before, behind, rfl⟩
  have fresh : entry ∉ before := by
    intro twice
    have nodup := (List.nodup_cons.mp ring.nodup).2
    exact (List.nodup_append.mp nodup).2.2 entry twice entry List.mem_cons_self rfl
  rw [Link.listDel, List.erase_append_right _ fresh, List.erase_cons_head]
  exact ring.listDel

/-- An addition writes to the new node and to nodes of the ring. -/
theorem Ring.listAdd_of_apart (ring : links.Ring head nodes) {other : α}
    (apart : other ∉ head :: nodes) (notNew : other ≠ new) :
    (links.listAdd new head).next other = links.next other ∧
      (links.listAdd new head).prev other = links.prev other := by
  have notHead : other ≠ head := List.ne_of_not_mem_cons apart
  have notFirst : other ≠ links.next head := by
    rintro rfl
    exact apart ring.next_head_mem
  simp [Links.listAdd, listAddBetween, notHead, notNew, notFirst]

/-- A deletion writes to nodes of the ring. -/
theorem Ring.listDel_of_apart (ring : links.Ring head nodes) (member : entry ∈ nodes) {other : α}
    (apart : other ∉ head :: nodes) :
    (links.listDel null entry).next other = links.next other ∧
      (links.listDel null entry).prev other = links.prev other := by
  rcases List.append_of_mem member with ⟨before, behind, rfl⟩
  rcases ring.neighbours with ⟨prev, next⟩
  have notEntry : other ≠ entry := by
    rintro rfl
    exact apart (List.mem_cons_of_mem head member)
  have notPrev : other ≠ links.prev entry := by
    rintro rfl
    apply apart
    rcases List.mem_cons.mp prev with same | inside
    · rw [same]
      exact List.mem_cons_self
    · exact List.mem_cons_of_mem head (List.mem_append_left _ inside)
  have notNext : other ≠ links.next entry := by
    rintro rfl
    apply apart
    rcases next with inside | same
    · exact List.mem_cons_of_mem head
        (List.mem_append_right _ (List.mem_cons_of_mem entry inside))
    · rw [same]
      exact List.mem_cons_self
  exact ⟨listDel_next_of_ne notEntry notPrev, listDel_prev_of_ne notEntry notNext⟩

end Ring

section Loops

variable {links : Links α} {head : α} {nodes before behind : List α}

/-- The node that a loop is at when `behind` is left of the ring. -/
theorem Ring.next_before {last : α} (ring : links.Ring head (before ++ last :: behind)) :
    links.next last = behind.headD head := by
  have path := (path_append.mp ring.path).2
  cases behind with
  | nil => exact path.1
  | cons node behind => exact path.1.1

theorem Ring.next_head (ring : links.Ring head nodes) : links.next head = nodes.headD head := by
  cases nodes with
  | nil => exact ring.path.1
  | cons node nodes => exact ring.path.1.1

theorem Ring.ne_head {node : α} (ring : links.Ring head (before ++ node :: behind)) :
    node ≠ head := by
  rintro rfl
  exact (List.nodup_cons.mp ring.nodup).1 (List.mem_append_right _ List.mem_cons_self)

variable [DecidableEq α]

theorem Ring.visited (ring : links.Ring head (before ++ behind)) {rounds : Nat}
    (enough : behind.length ≤ rounds) :
    links.visited head rounds (behind.headD head) = some behind := by
  induction behind generalizing before rounds with
  | nil => cases rounds <;> simp [Links.visited]
  | cons node behind ih =>
      have other : node ≠ head := ring.ne_head
      have next := ring.next_before
      cases rounds with
      | zero => simp at enough
      | succ rounds =>
          rw [List.append_cons] at ring
          have rest := ih ring (Nat.le_of_succ_le_succ enough)
          rw [List.headD_cons, Links.visited, if_neg other, next, rest, Option.map_some]

/-- `list_for_each` comes by the nodes of a ring in their order, and ends. -/
theorem Ring.listForEach (ring : links.Ring head nodes) {rounds : Nat}
    (enough : nodes.length ≤ rounds) : links.listForEach head rounds = some nodes := by
  rw [Links.listForEach, ring.next_head]
  exact @Ring.visited _ links head [] nodes _ ring rounds enough

variable {wanted : α → Bool}

theorem Ring.searchFrom (ring : links.Ring head (before ++ behind)) {rounds : Nat}
    (enough : behind.length ≤ rounds) :
    links.searchFrom head wanted rounds (behind.headD head) = some (behind.find? wanted) := by
  induction behind generalizing before rounds with
  | nil => cases rounds <;> simp [Links.searchFrom]
  | cons node behind ih =>
      have other : node ≠ head := ring.ne_head
      have next := ring.next_before
      cases rounds with
      | zero => simp at enough
      | succ rounds =>
          rw [List.append_cons] at ring
          have rest := ih ring (Nat.le_of_succ_le_succ enough)
          rw [List.headD_cons, Links.searchFrom, if_neg other]
          by_cases here : wanted node
          · rw [if_pos here, List.find?_cons_of_pos here]
          · rw [if_neg here, List.find?_cons_of_neg here, next, rest]

/-- On a ring, a search finds the first node wanted, and ends. -/
theorem Ring.search (ring : links.Ring head nodes) {rounds : Nat}
    (enough : nodes.length ≤ rounds) :
    links.search head wanted rounds = some (nodes.find? wanted) := by
  rw [Links.search, ring.next_head]
  exact @Ring.searchFrom _ links head [] nodes _ wanted ring rounds enough

variable {σ : Type v} {linksOf : σ → Links α} {body : α → σ → Option (σ × Bool)}

/-- The rule of `list_for_each_safe`: when the body leaves alone what is behind the entry
it is given, the loop is the body on one node after the other. -/
theorem roundsSafe_eq
    (keeps : ∀ before node behind s s' leaves, (linksOf s).Ring head (before ++ node :: behind) →
      body node s = some (s', leaves) → ∃ before', (linksOf s').Ring head (before' ++ behind))
    {s : σ} (ring : (linksOf s).Ring head (before ++ behind)) {rounds : Nat}
    (enough : behind.length ≤ rounds) :
    roundsSafe linksOf body head rounds (behind.headD head)
      ((linksOf s).next (behind.headD head)) s = foldUntil body behind s := by
  induction behind generalizing before rounds s with
  | nil => cases rounds <;> simp [roundsSafe, foldUntil]
  | cons node behind ih =>
      have other : node ≠ head := ring.ne_head
      have next := ring.next_before
      cases rounds with
      | zero => simp at enough
      | succ rounds =>
          rw [List.headD_cons, roundsSafe, if_neg other, foldUntil]
          cases ran : body node s with
          | none => rfl
          | some result =>
              rcases result with ⟨s', leaves⟩
              rcases keeps before node behind s s' leaves ring ran with ⟨before', ring'⟩
              simp only [Option.bind_some, next, ih ring' (Nat.le_of_succ_le_succ enough)]

theorem listForEachSafe_eq
    (keeps : ∀ before node behind s s' leaves, (linksOf s).Ring head (before ++ node :: behind) →
      body node s = some (s', leaves) → ∃ before', (linksOf s').Ring head (before' ++ behind))
    {s : σ} (ring : (linksOf s).Ring head nodes) {rounds : Nat} (enough : nodes.length ≤ rounds) :
    listForEachSafe linksOf body head rounds s = foldUntil body nodes s := by
  have rest := @roundsSafe_eq _ head [] nodes _ _ linksOf body keeps s ring rounds enough
  rw [listForEachSafe, ring.next_head]
  exact rest

end Loops

end Links

end Lpc17xx.Link
