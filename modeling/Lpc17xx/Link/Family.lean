import Lpc17xx.Link.Ring

/-!
# Lists in one memory

Any number of lists share the links.  Each operation of `list.c` is the operation of the
same name on the sequence behind one head; every other list keeps its sequence.  A safe
loop may take entries off its list as it comes by them, and what is on no list may be
written to at any time.
-/

namespace Lpc17xx.Link

universe u v

variable {α : Type u} {ι : Type v}

theorem listPop_fst (list : List α) : (listPop list).1 = list.head? := by
  cases list <;> rfl

theorem listPop_snd (list : List α) : (listPop list).2 = list.tail := by
  cases list <;> rfl

namespace Links

/-- `next` and `prev` undo one another on the nodes. -/
def Inverse (links : Links α) (nodes : List α) : Prop :=
  ∀ node ∈ nodes,
    links.prev (links.next node) = node ∧ links.next (links.prev node) = node

/-- Lists that lie apart in one memory, each with its head and the sequence behind it. -/
structure Family (links : Links α) (heads : ι → α) (lists : ι → List α) : Prop where
  ring : ∀ i, links.Ring (heads i) (lists i)
  apart : ∀ i j, i ≠ j → ∀ node ∈ heads i :: lists i, node ∉ heads j :: lists j

/-- The two pointers of one node are the same in both memories. -/
def Agree (links links' : Links α) (node : α) : Prop :=
  links'.next node = links.next node ∧ links'.prev node = links.prev node

theorem Path.prev_next {links : Links α} {first last : α} {nodes : List α}
    (path : links.Path first nodes last) {node : α} (member : node ∈ first :: nodes) :
    links.prev (links.next node) = node := by
  induction nodes generalizing first with
  | nil =>
      cases List.mem_singleton.mp member
      rw [path.1, path.2]
  | cons second nodes ih =>
      rcases List.mem_cons.mp member with rfl | later
      · rw [path.1.1, path.1.2]
      · exact ih path.2 later

/-- On a ring, `next` and `prev` undo one another. -/
theorem Ring.inverse {links : Links α} {head : α} {nodes : List α}
    (ring : links.Ring head nodes) : links.Inverse (head :: nodes) := by
  intro node member
  refine ⟨ring.path.prev_next member, ?_⟩
  refine ring.reversed.path.prev_next ?_
  rcases List.mem_cons.mp member with rfl | inside
  · exact List.mem_cons_self
  · exact List.mem_cons_of_mem head (List.mem_reverse.mpr inside)

section Operations

variable [DecidableEq α]

/-- `list_pop`: the entry behind the head, taken off the list, or none for `NULL`. -/
def listPop (links : Links α) (null head : α) : Option α × Links α :=
  if links.next head = head then (none, links)
  else (some (links.next head), links.listDel null (links.next head))

variable {links : Links α} {head new : α} {nodes : List α}

/-- At the tail of a list is behind the head of the list read the other way round. -/
theorem reversed_listAddTail (notHead : new ≠ head) (notLast : new ≠ links.prev head) :
    (links.listAddTail new head).reversed = links.reversed.listAdd new head := by
  simp only [reversed, listAddTail, Links.listAdd, listAddBetween, Links.mk.injEq]
  exact ⟨Function.update_comm notHead.symm _ _ _, Function.update_comm notLast _ _ _⟩

theorem Ring.listAddTail (ring : links.Ring head nodes) (fresh : new ∉ head :: nodes) :
    (links.listAddTail new head).Ring head (nodes ++ [new]) := by
  have notHead : new ≠ head := List.ne_of_not_mem_cons fresh
  have notLast : new ≠ links.prev head := (ne_of_mem_of_not_mem ring.path.prev_mem fresh).symm
  have freshReversed : new ∉ head :: nodes.reverse := by
    simpa using fresh
  have added := (ring.reversed.listAdd freshReversed).reversed
  rw [← reversed_listAddTail notHead notLast, List.reverse_cons, List.reverse_reverse] at added
  exact added

/-- An addition at the tail writes to the new node and to nodes of the ring. -/
theorem Ring.listAddTail_of_apart (ring : links.Ring head nodes) {other : α}
    (apart : other ∉ head :: nodes) (notNew : other ≠ new) :
    Agree links (links.listAddTail new head) other := by
  have notHead : other ≠ head := List.ne_of_not_mem_cons apart
  have notLast : other ≠ links.prev head := (ne_of_mem_of_not_mem ring.path.prev_mem apart).symm
  simp [Agree, Links.listAddTail, listAddBetween, notHead, notNew, notLast]

theorem listDel_cleared (links : Links α) (null entry : α) :
    (links.listDel null entry).next entry = null ∧ (links.listDel null entry).prev entry = null :=
  ⟨Function.update_self _ _ _, Function.update_self _ _ _⟩

theorem Ring.listPop_nil {null : α} (ring : links.Ring head []) :
    links.listPop null head = (none, links) :=
  if_pos ring.path.1

theorem Ring.listPop_cons {null entry : α} (ring : links.Ring head (entry :: nodes)) :
    links.listPop null head = (some entry, links.listDel null entry) := by
  have filled : links.next head ≠ head := fun empty =>
    List.cons_ne_nil _ _ (ring.next_head_eq_iff.mp empty)
  have first : links.next head = entry := ring.path.1.1
  rw [Links.listPop, if_neg filled, first]

end Operations

namespace Family

variable {links links' : Links α} {heads : ι → α} {lists : ι → List α}

theorem inverse (family : Family links heads lists) (i : ι) :
    links.Inverse (heads i :: lists i) :=
  (family.ring i).inverse

/-- A memory that agrees on every node of the lists holds the same lists. -/
theorem congr (family : Family links heads lists)
    (agree : ∀ i, ∀ node ∈ heads i :: lists i, Agree links links' node) :
    Family links' heads lists where
  ring i := (family.ring i).congr (fun node member => (agree i node member).1)
    fun node member => (agree i node member).2
  apart := family.apart

variable [DecidableEq ι]

/-- One list is changed, by an operation that writes to its nodes and to `new` ones on no
list only. -/
theorem update (family : Family links heads lists) {i : ι} {nodes : List α} (new : α → Prop)
    (ring : links'.Ring (heads i) nodes)
    (origin : ∀ node ∈ nodes, node ∈ lists i ∨ new node)
    (fresh : ∀ node, new node → ∀ j, node ∉ heads j :: lists j)
    (agree : ∀ node, node ∉ heads i :: lists i → ¬new node → Agree links links' node) :
    Family links' heads (Function.update lists i nodes) := by
  have elsewhere {j : ι} (other : j ≠ i) {node : α} (member : node ∈ heads j :: lists j) :
      node ∉ heads i :: nodes := by
    intro inside
    rcases List.mem_cons.mp inside with rfl | among
    · exact family.apart j i other _ member List.mem_cons_self
    · rcases origin node among with there | isNew
      · exact family.apart j i other node member (List.mem_cons_of_mem _ there)
      · exact fresh node isNew j member
  constructor
  · intro j
    by_cases same : j = i
    · subst same
      rw [Function.update_self]
      exact ring
    · rw [Function.update_of_ne same]
      have untouched {node : α} (member : node ∈ heads j :: lists j) : Agree links links' node :=
        agree node (family.apart j i same node member) fun isNew => fresh node isNew j member
      exact (family.ring j).congr (fun node member => (untouched member).1)
        fun node member => (untouched member).2
  · intro j k different node
    by_cases first : j = i
    · subst first
      rw [Function.update_self, Function.update_of_ne different.symm]
      exact fun member there => elsewhere different.symm there member
    · rw [Function.update_of_ne first]
      by_cases second : k = i
      · subst second
        rw [Function.update_self]
        exact elsewhere first
      · rw [Function.update_of_ne second]
        exact family.apart j k different node

variable [DecidableEq α] {new entry null : α}

theorem listAdd (family : Family links heads lists) (i : ι)
    (fresh : ∀ j, new ∉ heads j :: lists j) :
    Family (links.listAdd new (heads i)) heads
      (Function.update lists i (Link.listAdd new (lists i))) := by
  refine family.update (· = new) ((family.ring i).listAdd (fresh i)) ?_ ?_ ?_
  · intro node member
    exact (List.mem_cons.mp member).symm
  · rintro node rfl
    exact fresh
  · intro node apart notNew
    exact (family.ring i).listAdd_of_apart apart notNew

theorem listAddTail (family : Family links heads lists) (i : ι)
    (fresh : ∀ j, new ∉ heads j :: lists j) :
    Family (links.listAddTail new (heads i)) heads
      (Function.update lists i (Link.listAddTail new (lists i))) := by
  refine family.update (· = new) ((family.ring i).listAddTail (fresh i)) ?_ ?_ ?_
  · intro node member
    exact (List.mem_append.mp member).imp_right List.mem_singleton.mp
  · rintro node rfl
    exact fresh
  · intro node apart notNew
    exact (family.ring i).listAddTail_of_apart apart notNew

theorem listDel (family : Family links heads lists) (i : ι) (member : entry ∈ lists i) :
    Family (links.listDel null entry) heads
      (Function.update lists i (Link.listDel entry (lists i))) := by
  refine family.update (fun _ => False) ((family.ring i).listDel_of_mem member) ?_ ?_ ?_
  · intro node inside
    exact .inl (List.mem_of_mem_erase inside)
  · intro node isNew
    contradiction
  · intro node apart _
    exact (family.ring i).listDel_of_apart member apart

/-- An entry that was deleted is on no list. -/
theorem not_mem_listDel (family : Family links heads lists) {i : ι} (member : entry ∈ lists i)
    (j : ι) : entry ∉ heads j :: Function.update lists i (Link.listDel entry (lists i)) j := by
  have distinct := (family.ring i).nodup
  by_cases here : j = i
  · subst here
    rw [Function.update_self]
    intro still
    rcases List.mem_cons.mp still with rfl | onList
    · exact (List.nodup_cons.mp distinct).1 member
    · exact (List.nodup_cons.mp distinct).2.not_mem_erase onList
  · rw [Function.update_of_ne here]
    exact family.apart i j (Ne.symm here) entry (List.mem_cons_of_mem _ member)

theorem listPop (family : Family links heads lists) (i : ι) :
    (links.listPop null (heads i)).1 = (Link.listPop (lists i)).1 ∧
      Family (links.listPop null (heads i)).2 heads
        (Function.update lists i (Link.listPop (lists i)).2) := by
  have ring := family.ring i
  cases found : lists i with
  | nil =>
      have same : Function.update lists i [] = lists := by
        rw [← found, Function.update_eq_self]
      rw [found] at ring
      rw [ring.listPop_nil]
      exact ⟨rfl, same.symm ▸ family⟩
  | cons entry rest =>
      have member : entry ∈ lists i := found ▸ List.mem_cons_self
      have deleted := @listDel _ _ _ _ _ _ _ entry null family i member
      rw [found, Link.listDel, List.erase_cons_head] at deleted
      rw [found] at ring
      rw [ring.listPop_cons]
      exact ⟨rfl, deleted⟩

end Family

section Safe

/-- The body of a safe loop in a memory that holds lists at `heads`: which entries it takes
off the list, and what it writes then, be it to an entry that it has freed.  Once an entry to
be deleted is on no list, the body writes to nothing that is on one. -/
structure Body (heads : ι → α) where
  deletes : α → Bool
  writes : α → Links α → Links α
  confined : ∀ pos links lists, Family links heads lists →
    (deletes pos = true → ∀ i, pos ∉ heads i :: lists i) →
    ∀ i, ∀ node ∈ heads i :: lists i, Agree links (writes pos links) node

/-- The memory in a safe loop, and the entries that the body has been given. -/
structure Visits (α : Type u) where
  links : Links α
  entries : List α

variable [DecidableEq α]

/-- The body on one entry.  It does not leave the loop. -/
def Body.visit {heads : ι → α} (body : Body heads) (null pos : α) (s : Visits α) :
    Option (Visits α × Bool) :=
  let links := if body.deletes pos then s.links.listDel null pos else s.links
  some ({ links := body.writes pos links, entries := s.entries ++ [pos] }, false)

theorem Body.visit_of_deletes {heads : ι → α} (body : Body heads) {null pos : α} {s : Visits α}
    (deleted : body.deletes pos = true) :
    body.visit null pos s =
      some (⟨body.writes pos (s.links.listDel null pos), s.entries ++ [pos]⟩, false) := by
  rw [visit, if_pos deleted]

theorem Body.visit_of_keeps {heads : ι → α} (body : Body heads) {null pos : α} {s : Visits α}
    (kept : ¬body.deletes pos = true) :
    body.visit null pos s = some (⟨body.writes pos s.links, s.entries ++ [pos]⟩, false) := by
  rw [visit, if_neg kept]

/-- A body that frees the entries it deletes: something else is kept where the links were. -/
def Body.freeing (heads : ι → α) (deletes : α → Bool) (next prev : α → α) : Body heads where
  deletes := deletes
  writes pos links :=
    if deletes pos then
      { next := Function.update links.next pos (next pos)
        prev := Function.update links.prev pos (prev pos) }
    else links
  confined := by
    intro pos links lists _ freed i node member
    split
    · rename_i deleted
      have other : node ≠ pos := ne_of_mem_of_not_mem member (freed deleted i)
      exact ⟨Function.update_of_ne other _ _, Function.update_of_ne other _ _⟩
    · exact ⟨rfl, rfl⟩

variable {σ : Type v} {linksOf : σ → Links α} {body : α → σ → Option (σ × Bool)} {head : α}
  {inv : List α → σ → Prop}

/-- The rule of `list_for_each_safe` with an invariant that knows what is left of the
list: the body may do what it likes as long as that stays behind the head. -/
theorem roundsSafe_invariant
    (ring : ∀ behind s, inv behind s → ∃ before, (linksOf s).Ring head (before ++ behind))
    (step : ∀ node behind s, inv (node :: behind) s →
      ∃ s', body node s = some (s', false) ∧ inv behind s')
    {behind : List α} {s : σ} (holds : inv behind s) {rounds : Nat}
    (enough : behind.length ≤ rounds) :
    ∃ s', roundsSafe linksOf body head rounds (behind.headD head)
      ((linksOf s).next (behind.headD head)) s = some s' ∧ inv [] s' := by
  induction behind generalizing rounds s with
  | nil =>
      refine ⟨s, ?_, holds⟩
      cases rounds <;> simp [roundsSafe]
  | cons node behind ih =>
      rcases ring _ _ holds with ⟨before, here⟩
      have other : node ≠ head := by
        rintro rfl
        exact (List.nodup_cons.mp here.nodup).1 (List.mem_append_right _ List.mem_cons_self)
      rcases step node behind s holds with ⟨s', ran, holds'⟩
      cases rounds with
      | zero => simp at enough
      | succ rounds =>
          rcases ih holds' (Nat.le_of_succ_le_succ enough) with ⟨last, ends, kept⟩
          refine ⟨last, ?_, kept⟩
          rw [List.headD_cons, roundsSafe, if_neg other, ran, here.next_before]
          exact ends

end Safe

namespace Family

variable {links : Links α} {heads : ι → α} {lists : ι → List α}

/-- What a safe loop over the list at `heads i` keeps: the entries visited, less those
deleted, and then those to come are on its list; the other lists are as they were. -/
def Looping [DecidableEq α] (lists : ι → List α) (i : ι) (body : Body heads) (behind : List α)
    (s : Visits α) : Prop :=
  s.entries ++ behind = lists i ∧ ∃ lists', Family s.links heads lists' ∧
    lists' i = s.entries.filter (!body.deletes ·) ++ behind ∧ ∀ j, j ≠ i → lists' j = lists j

variable [DecidableEq ι] [DecidableEq α] {i : ι} {body : Body heads} {null : α}

theorem Looping.visit {node : α} {behind : List α} {s : Visits α}
    (looping : Looping lists i body (node :: behind) s) :
    ∃ s', body.visit null node s = some (s', false) ∧ Looping lists i body behind s' := by
  rcases looping with ⟨split, lists', family, onList, others⟩
  have passed : s.entries ++ [node] ++ behind = lists i := by
    rw [← split, List.append_assoc, List.singleton_append]
  by_cases deleted : body.deletes node
  · have member : node ∈ lists' i := by
      rw [onList]
      exact List.mem_append_right _ List.mem_cons_self
    have fresh : node ∉ s.entries.filter (!body.deletes ·) := by
      intro kept
      simpa [deleted] using (List.mem_filter.mp kept).2
    have left := @listDel _ _ _ _ _ _ _ node null family i member
    have freed := family.not_mem_listDel member
    refine ⟨_, body.visit_of_deletes deleted, passed, _,
      left.congr (body.confined node _ _ left fun _ => freed), ?_, ?_⟩
    · rw [Function.update_self, onList, Link.listDel, List.erase_append_right _ fresh,
        List.erase_cons_head, List.filter_append]
      simp [deleted]
    · intro j other
      rw [Function.update_of_ne other, others j other]
  · refine ⟨_, body.visit_of_keeps deleted, passed, lists',
      family.congr (body.confined node _ _ family fun deletes => absurd deletes deleted), ?_,
      others⟩
    rw [onList, List.filter_append]
    simp [deleted]

/-- A safe loop gives its body every entry of the list once and in order, whatever the body
deletes and frees; the list keeps the entries that were not deleted. -/
theorem listForEachSafe (family : Family links heads lists) (i : ι) (body : Body heads)
    {rounds : Nat} (enough : (lists i).length ≤ rounds) :
    ∃ links', Links.listForEachSafe Visits.links (body.visit null) (heads i) rounds
        { links := links, entries := [] } = some { links := links', entries := lists i } ∧
      Family links' heads (Function.update lists i ((lists i).filter (!body.deletes ·))) := by
  have start : Looping lists i body (lists i) { links := links, entries := [] } :=
    ⟨rfl, lists, family, rfl, fun _ _ => rfl⟩
  have ring (behind : List α) (s : Visits α) (looping : Looping lists i body behind s) :
      ∃ before, s.links.Ring (heads i) (before ++ behind) := by
    rcases looping with ⟨_, lists', there, onList, _⟩
    exact ⟨_, onList ▸ there.ring i⟩
  have step (node : α) (behind : List α) (s : Visits α)
      (looping : Looping lists i body (node :: behind) s) :
      ∃ s', body.visit null node s = some (s', false) ∧ Looping lists i body behind s' :=
    looping.visit
  rcases roundsSafe_invariant ring step start enough with
    ⟨⟨links', entries⟩, ran, split, lists', family', onList, others⟩
  rw [List.append_nil] at split onList
  change entries = lists i at split
  subst split
  refine ⟨links', ?_, ?_⟩
  · rw [Links.listForEachSafe, (family.ring i).next_head]
    exact ran
  · have same : lists' = Function.update lists i ((lists i).filter (!body.deletes ·)) :=
      Function.eq_update_iff.mpr ⟨onList, others⟩
    exact same ▸ family'

end Family

/-- The lists of a memory, well formed, with `next` and `prev` inverse on each. -/
structure Holds (links : Links α) (heads : ι → α) (lists : ι → List α) : Prop where
  family : Family links heads lists
  inverse : ∀ i, links.Inverse (heads i :: lists i)

theorem Family.holds {links : Links α} {heads : ι → α} {lists : ι → List α}
    (family : Family links heads lists) : Holds links heads lists :=
  ⟨family, family.inverse⟩

section Sequences

variable [DecidableEq α] [DecidableEq ι] {links : Links α} {heads : ι → α} {lists : ι → List α}

/-- The operations of `list.c` are those of the same names on sequences. -/
theorem lists_implement_sequences (holds : Holds links heads lists) (null : α) (i : ι) :
    (∀ new, (∀ j, new ∉ heads j :: lists j) →
      Holds (links.listAdd new (heads i)) heads
        (Function.update lists i (new :: lists i))) ∧
    (∀ new, (∀ j, new ∉ heads j :: lists j) →
      Holds (links.listAddTail new (heads i)) heads
        (Function.update lists i (lists i ++ [new]))) ∧
    (∀ entry ∈ lists i,
      Holds (links.listDel null entry) heads
        (Function.update lists i ((lists i).erase entry)) ∧
      (links.listDel null entry).next entry = null ∧
      (links.listDel null entry).prev entry = null) ∧
    ((links.listPop null (heads i)).1 = (lists i).head? ∧
      Holds (links.listPop null (heads i)).2 heads
        (Function.update lists i (lists i).tail)) ∧
    ∀ (body : Body heads) (rounds : Nat), (lists i).length ≤ rounds →
      ∃ links', listForEachSafe Visits.links (body.visit null) (heads i) rounds
          { links := links, entries := [] } = some { links := links', entries := lists i } ∧
        Holds links' heads
          (Function.update lists i ((lists i).filter (!body.deletes ·))) := by
  have family := holds.family
  refine ⟨?_, ?_, ?_, ?_, ?_⟩
  · intro new fresh
    exact (family.listAdd i fresh).holds
  · intro new fresh
    exact (family.listAddTail i fresh).holds
  · intro entry member
    exact ⟨(family.listDel i member).holds, links.listDel_cleared null entry⟩
  · rcases @Family.listPop _ _ _ _ _ _ _ null family i with ⟨popped, left⟩
    rw [listPop_fst] at popped
    rw [listPop_snd] at left
    exact ⟨popped, left.holds⟩
  · intro body rounds enough
    rcases @Family.listForEachSafe _ _ _ _ _ _ _ null family i body rounds enough with
      ⟨links', ran, left⟩
    exact ⟨links', ran, left.holds⟩

/-- Every multiple of four the head of a list of the three numbers that follow. -/
def triples : Links Nat where
  next node := if node % 4 = 3 then node - 3 else node + 1
  prev node := if node % 4 = 0 then node + 3 else node - 1

def triple (i : Nat) : List Nat :=
  [4 * i + 1, 4 * i + 2, 4 * i + 3]

theorem triples_ring (i : Nat) : triples.Ring (4 * i) (triple i) := by
  constructor
  · simp [Path, triples, triple, Nat.add_mod]
  · simp [triple]

theorem triples_holds : Holds triples (4 * ·) triple := by
  refine Family.holds ⟨triples_ring, ?_⟩
  intro i j other node member there
  simp only [triple, List.mem_cons, List.not_mem_nil, or_false] at member there
  omega

/-- A safe loop that deletes and frees the odd entries of the second list, where something
else is kept from then on. -/
theorem lists_implement_sequences_triples :
    ∃ links', listForEachSafe Visits.links
        ((Body.freeing (4 * ·) (· % 2 = 1) (fun _ => 0) fun _ => 2).visit 0) 4 3
        { links := triples, entries := [] } = some { links := links', entries := [5, 6, 7] } ∧
      Holds links' (4 * ·) (Function.update triple 1 [6]) :=
  (lists_implement_sequences triples_holds 0 1).2.2.2.2
    (.freeing (4 * ·) (· % 2 = 1) (fun _ => 0) fun _ => 2) 3 (Nat.le_refl 3)

end Sequences

end Links

end Lpc17xx.Link
