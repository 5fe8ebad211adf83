import MyServer.MpscQueueCore
import MyServer.Adjacent

/-!
The shape of the queue at every moment: a chain of nodes from the dummy `head_` to
`tail_`. A link of the chain is missing exactly while the push that appended its right
end stands between its exchange and its last store.
-/

namespace MyServer

variable {Producer Record : Type}

def PushPc.appended : PushPc Record → List Record
  | .exchangeTail node => [node]
  | _ => []

/-- What the locals of a running `pop` say about the queue. -/
def PopPc.Sound (queue : MpscQueue Record) : PopPc Record → Prop
  | .loadNext => True
  | .compareTail head | .spin head => head = queue.head
  | .advance next => queue.next queue.head = some next

def EmptyPc.Sound (queue : MpscQueue Record) : EmptyPc Record → Prop
  | .loadNext => True
  | .compareTail head => head = queue.head

namespace MpscQueue

def chain (queue : MpscQueue Record) (pending : List Record) : List (MpscNode Record) :=
  queue.head :: pending.map .record

structure Chain (queue : MpscQueue Record) (pending : List Record)
    (pushers : Producer → Option (PushPc Record)) : Prop where
  nodup : (queue.chain pending).Nodup
  tailLast : (queue.chain pending).getLast? = some queue.tail
  tailNull : queue.next queue.tail = none
  linked : ∀ prev node, (queue.chain pending).Adjacent prev (.record node) →
    queue.next prev = some (.record node) ∨
      ∃ producer, pushers producer = some (.linkPrev node prev)
  window : ∀ producer node prev, pushers producer = some (.linkPrev node prev) →
    (queue.chain pending).Adjacent prev (.record node) ∧ queue.next prev = none
  outside : ∀ producer node, pushers producer = some (.clearNext node) ∨
    pushers producer = some (.exchangeTail node) → .record node ∉ queue.chain pending
  cleared : ∀ producer node, pushers producer = some (.exchangeTail node) →
    queue.next (.record node) = none
  distinct : ∀ left right node, (pushers left).map PushPc.node = some node →
    (pushers right).map PushPc.node = some node → left = right

/-- A queue whose `head_` and `tail_` are one node without successor, and no push. -/
theorem Chain.fresh {queue : MpscQueue Record} (same : queue.tail = queue.head)
    (null : queue.next queue.head = none) :
    Chain queue [] (fun _ : Producer => none) := by
  constructor
  case nodup => simp [chain]
  case tailLast => simp [chain, same]
  case tailNull => rw [same, null]
  case linked =>
    intro prev node adjacent
    simp [chain, List.adjacent_cons, List.not_adjacent_nil] at adjacent
  all_goals simp

variable {queue : MpscQueue Record} {pending : List Record}
variable {pushers : Producer → Option (PushPc Record)}

theorem Chain.tail_mem (ok : Chain queue pending pushers) : queue.tail ∈ queue.chain pending :=
  List.mem_of_getLast? ok.tailLast

/-- When `tail_` is the dummy, every exchanged node has been popped. -/
theorem Chain.drained (ok : Chain queue pending pushers) (same : queue.tail = queue.head) :
    pending = [] := by
  have last := ok.tailLast
  rw [same] at last
  have none := List.eq_nil_of_getLast?_head ok.nodup last
  simpa using none

/-- A stored successor of a node of the chain is its neighbour there. -/
theorem Chain.next_adjacent (ok : Chain queue pending pushers) {node next : MpscNode Record}
    (inside : node ∈ queue.chain pending) (stored : queue.next node = some next) :
    (queue.chain pending).Adjacent node next := by
  rcases List.last_or_adjacent inside with last | ⟨other, adjacent⟩
  · have same := Option.some.inj (ok.tailLast.symm.trans last)
    have null := ok.tailNull
    simp [same, stored] at null
  · obtain ⟨record, _, rfl⟩ := List.mem_map.mp adjacent.right_mem_tail
    rcases ok.linked node record adjacent with linked | ⟨producer, missing⟩
    · have same := Option.some.inj (stored.symm.trans linked)
      exact same ▸ adjacent
    · have null := (ok.window _ _ _ missing).2
      simp [stored] at null

/-- A successor of the dummy is the oldest pending node. -/
theorem Chain.front (ok : Chain queue pending pushers) {next : MpscNode Record}
    (loaded : queue.next queue.head = some next) :
    ∃ node rest, pending = node :: rest ∧ next = .record node := by
  cases pending with
  | nil =>
      have same : queue.tail = queue.head := by simpa [chain, eq_comm] using ok.tailLast
      have null := ok.tailNull
      simp [same, loaded] at null
  | cons node rest =>
      refine ⟨node, rest, rfl, ?_⟩
      have adjacent : (queue.chain (node :: rest)).Adjacent queue.head (.record node) := by
        simp [chain, List.adjacent_cons]
      rcases ok.linked _ _ adjacent with stored | ⟨producer, missing⟩
      · exact Option.some.inj (loaded.symm.trans stored)
      · have null := (ok.window _ _ _ missing).2
        simp [loaded] at null

/-- The dummy's successor is determined by the pending nodes and the pushes under way. -/
theorem Chain.next_agree {other : MpscQueue Record} (ok : Chain queue pending pushers)
    (otherOk : Chain other pending pushers) (head : queue.head = other.head) :
    queue.next queue.head = other.next other.head := by
  cases pending with
  | nil =>
      have tail : queue.tail = queue.head := by simpa [chain, eq_comm] using ok.tailLast
      have otherTail : other.tail = other.head := by
        simpa [chain, eq_comm] using otherOk.tailLast
      rw [← tail, ok.tailNull, ← otherTail, otherOk.tailNull]
  | cons node rest =>
      have adjacent : (queue.chain (node :: rest)).Adjacent queue.head (.record node) := by
        simp [chain, List.adjacent_cons]
      have otherAdjacent : (other.chain (node :: rest)).Adjacent other.head (.record node) := by
        simp [chain, List.adjacent_cons]
      rcases ok.linked _ _ adjacent with stored | ⟨producer, missing⟩
      · rcases otherOk.linked _ _ otherAdjacent with otherStored | ⟨producer, missing⟩
        · rw [stored, otherStored]
        · rw [← head] at missing
          simp [(ok.window _ _ _ missing).2] at stored
      · have null := (ok.window _ _ _ missing).2
        rw [head] at missing
        rw [null, (otherOk.window _ _ _ missing).2]

theorem Chain.advance {node : Record} {rest : List Record}
    (ok : Chain queue (node :: rest) pushers)
    (loaded : queue.next queue.head = some (.record node)) :
    Chain { queue with head := .record node } rest pushers := by
  have shorter : queue.chain (node :: rest) =
      queue.head :: chain { queue with head := .record node } rest := rfl
  have nodup := ok.nodup
  rw [shorter, List.nodup_cons] at nodup
  constructor
  case nodup => exact nodup.2
  case tailLast =>
    have last := ok.tailLast
    rwa [shorter, chain, List.getLast?_cons_cons] at last
  case tailNull => exact ok.tailNull
  case linked =>
    intro prev next adjacent
    apply ok.linked
    rw [shorter, List.adjacent_cons]
    exact Or.inr adjacent
  case window =>
    intro producer next prev missing
    obtain ⟨adjacent, null⟩ := ok.window producer next prev missing
    refine ⟨?_, null⟩
    rw [shorter, List.adjacent_cons] at adjacent
    rcases adjacent with ⟨rfl, _⟩ | later
    · simp [loaded] at null
    · exact later
  case outside =>
    intro producer next early inside
    apply ok.outside producer next early
    rw [shorter]
    exact List.mem_cons_of_mem _ inside
  case cleared => exact ok.cleared
  case distinct => exact ok.distinct

section Push

variable [DecidableEq Producer] {producer : Producer} {node : Record}

theorem Chain.begin (ok : Chain queue pending pushers) (idle : pushers producer = none)
    (absent : .record node ∉ queue.chain pending)
    (unused : ∀ other, (pushers other).map PushPc.node ≠ some node) :
    Chain queue pending (Function.update pushers producer (some (.clearNext node))) := by
  constructor
  case nodup => exact ok.nodup
  case tailLast => exact ok.tailLast
  case tailNull => exact ok.tailNull
  case linked =>
    intro prev next adjacent
    rcases ok.linked prev next adjacent with stored | ⟨other, missing⟩
    · exact Or.inl stored
    · have different : other ≠ producer := by
        rintro rfl
        simp [idle] at missing
      exact Or.inr ⟨other, by simpa [different] using missing⟩
  case window =>
    intro other next prev missing
    by_cases same : other = producer
    · simp [same] at missing
    · exact ok.window other next prev (by simpa [same] using missing)
  case outside =>
    intro other next early
    by_cases same : other = producer
    · have named : node = next := by simpa [same] using early
      exact named ▸ absent
    · exact ok.outside other next (by simpa [same] using early)
  case cleared =>
    intro other next ready
    by_cases same : other = producer
    · simp [same] at ready
    · exact ok.cleared other next (by simpa [same] using ready)
  case distinct =>
    intro left right next first second
    by_cases atLeft : left = producer <;> by_cases atRight : right = producer
    · rw [atLeft, atRight]
    · have named : node = next := by simpa [atLeft, PushPc.node] using first
      exact absurd (by simpa [atRight, named] using second) (unused right)
    · have named : node = next := by simpa [atRight, PushPc.node] using second
      exact absurd (by simpa [atLeft, named] using first) (unused left)
    · exact ok.distinct left right next (by simpa [atLeft] using first)
        (by simpa [atRight] using second)

/-- A later program counter for the same node keeps the nodes being pushed apart. -/
theorem Chain.distinct_update (ok : Chain queue pending pushers) {pc : PushPc Record}
    {later : Option (PushPc Record)} (busy : pushers producer = some pc)
    (same : ∀ node, later.map PushPc.node = some node → pc.node = node)
    (left right : Producer) (node : Record)
    (first : (Function.update pushers producer later left).map PushPc.node = some node)
    (second : (Function.update pushers producer later right).map PushPc.node = some node) :
    left = right := by
  have before : ∀ other, (Function.update pushers producer later other).map PushPc.node =
      some node → (pushers other).map PushPc.node = some node := by
    intro other now
    by_cases here : other = producer
    · have named := same node (by simpa [here] using now)
      simp [here, busy, named]
    · simpa [here] using now
  exact ok.distinct left right node (before left first) (before right second)

/-- The exchange appends the node; the link from the old tail is still missing. -/
theorem Chain.exchange (ok : Chain queue pending pushers)
    (busy : pushers producer = some (.exchangeTail node)) :
    Chain { queue with tail := .record node } (pending ++ [node])
      (Function.update pushers producer (some (.linkPrev node queue.tail))) := by
  have absent := ok.outside producer node (Or.inr busy)
  have longer : chain { queue with tail := .record node } (pending ++ [node]) =
      queue.chain pending ++ [.record node] := by simp [chain]
  have adjacentIff : ∀ prev next,
      (chain { queue with tail := .record node } (pending ++ [node])).Adjacent prev next ↔
        (queue.chain pending).Adjacent prev next ∨ (prev = queue.tail ∧ next = .record node) := by
    intro prev next
    rw [longer, List.adjacent_concat, ok.tailLast, Option.some.injEq, eq_comm (b := prev)]
  constructor
  case nodup =>
    rw [longer, List.nodup_append]
    refine ⟨ok.nodup, by simp, ?_⟩
    rintro place inside other last rfl
    exact absent (by simpa [List.mem_singleton.mp last] using inside)
  case tailLast => rw [longer, List.getLast?_concat]
  case tailNull => exact ok.cleared producer node busy
  case linked =>
    intro prev next adjacent
    rcases (adjacentIff _ _).mp adjacent with old | ⟨rfl, named⟩
    · rcases ok.linked prev next old with stored | ⟨other, missing⟩
      · exact Or.inl stored
      · have different : other ≠ producer := by
          rintro rfl
          simp [busy] at missing
        exact Or.inr ⟨other, by simpa [different] using missing⟩
    · obtain rfl : next = node := by simpa using named
      exact Or.inr ⟨producer, by simp⟩
  case window =>
    intro other next prev missing
    by_cases same : other = producer
    · obtain ⟨rfl, rfl⟩ : node = next ∧ queue.tail = prev := by simpa [same] using missing
      exact ⟨(adjacentIff _ _).mpr (Or.inr ⟨rfl, rfl⟩), ok.tailNull⟩
    · obtain ⟨adjacent, null⟩ := ok.window other next prev (by simpa [same] using missing)
      exact ⟨(adjacentIff _ _).mpr (Or.inl adjacent), null⟩
  case outside =>
    intro other next early
    by_cases same : other = producer
    · simp [same] at early
    · have before : pushers other = some (.clearNext next) ∨
          pushers other = some (.exchangeTail next) := by simpa [same] using early
      rw [longer, List.mem_append, List.mem_singleton]
      rintro (inside | named)
      · exact ok.outside other next before inside
      · have named : node = next := by simpa [eq_comm] using named
        apply same
        apply ok.distinct other producer next
        · rcases before with pc | pc <;> simp [pc, PushPc.node]
        · simp [busy, named, PushPc.node]
  case cleared =>
    intro other next ready
    by_cases same : other = producer
    · simp [same] at ready
    · exact ok.cleared other next (by simpa [same] using ready)
  case distinct =>
    exact ok.distinct_update busy (by simp [PushPc.node])

variable [DecidableEq Record]

theorem Chain.clear (ok : Chain queue pending pushers)
    (busy : pushers producer = some (.clearNext node)) :
    Chain { queue with next := Function.update queue.next (.record node) none } pending
      (Function.update pushers producer (some (.exchangeTail node))) := by
  have absent := ok.outside producer node (Or.inl busy)
  have kept : ∀ place ∈ queue.chain pending,
      Function.update queue.next (.record node) none place = queue.next place := by
    intro place inside
    apply Function.update_of_ne
    rintro rfl
    exact absent inside
  constructor
  case nodup => exact ok.nodup
  case tailLast => exact ok.tailLast
  case tailNull => exact (kept _ ok.tail_mem).trans ok.tailNull
  case linked =>
    intro prev next adjacent
    rcases ok.linked prev next adjacent with stored | ⟨other, missing⟩
    · exact Or.inl ((kept prev adjacent.left_mem).trans stored)
    · have different : other ≠ producer := by
        rintro rfl
        simp [busy] at missing
      exact Or.inr ⟨other, by simpa [different] using missing⟩
  case window =>
    intro other next prev missing
    by_cases same : other = producer
    · simp [same] at missing
    · obtain ⟨adjacent, null⟩ := ok.window other next prev (by simpa [same] using missing)
      exact ⟨adjacent, (kept prev adjacent.left_mem).trans null⟩
  case outside =>
    intro other next early
    by_cases same : other = producer
    · have named : node = next := by simpa [same] using early
      exact named ▸ absent
    · exact ok.outside other next (by simpa [same] using early)
  case cleared =>
    intro other next ready
    by_cases same : other = producer
    · have named : node = next := by simpa [same] using ready
      simp [named]
    · have null := ok.cleared other next (by simpa [same] using ready)
      by_cases named : next = node
      · simp [named]
      · simpa [named] using null
  case distinct =>
    exact ok.distinct_update busy (by simp [PushPc.node])

/-- The last store of a push closes the gap it left at its exchange. -/
theorem Chain.link (ok : Chain queue pending pushers) {prev : MpscNode Record}
    (busy : pushers producer = some (.linkPrev node prev)) :
    Chain { queue with next := Function.update queue.next prev (some (.record node)) } pending
      (Function.update pushers producer none) := by
  obtain ⟨here, null⟩ := ok.window producer node prev busy
  constructor
  case nodup => exact ok.nodup
  case tailLast => exact ok.tailLast
  case tailNull =>
    have different : queue.tail ≠ prev := by
      rintro rfl
      exact here.not_last ok.nodup ok.tailLast
    simpa [different] using ok.tailNull
  case linked =>
    intro left next adjacent
    by_cases same : left = prev
    · subst same
      have named := here.unique_right ok.nodup adjacent
      exact Or.inl (by simp [named])
    · rcases ok.linked left next adjacent with stored | ⟨other, missing⟩
      · exact Or.inl (by simpa [same] using stored)
      · have different : other ≠ producer := by
          rintro rfl
          simp only [busy, Option.some.injEq, PushPc.linkPrev.injEq] at missing
          exact same missing.2.symm
        exact Or.inr ⟨other, by simpa [different] using missing⟩
  case window =>
    intro other next left missing
    by_cases same : other = producer
    · simp [same] at missing
    · have missing : pushers other = some (.linkPrev next left) := by simpa [same] using missing
      obtain ⟨adjacent, free⟩ := ok.window other next left missing
      refine ⟨adjacent, ?_⟩
      have different : left ≠ prev := by
        rintro rfl
        have named := here.unique_right ok.nodup adjacent
        apply same
        apply ok.distinct other producer node
        · simpa [missing, PushPc.node, eq_comm] using named
        · simp [busy, PushPc.node]
      simpa [different] using free
  case outside =>
    intro other next early
    by_cases same : other = producer
    · simp [same] at early
    · exact ok.outside other next (by simpa [same] using early)
  case cleared =>
    intro other next ready
    by_cases same : other = producer
    · simp [same] at ready
    · have ready : pushers other = some (.exchangeTail next) := by simpa [same] using ready
      have different : MpscNode.record next ≠ prev := by
        rintro rfl
        exact ok.outside other next (Or.inr ready) here.left_mem
      simpa [different] using ok.cleared other next ready
  case distinct =>
    exact ok.distinct_update busy (by simp)

/-- Every step of a push keeps the chain; its exchange appends the node. -/
theorem Chain.pushStep (ok : Chain queue pending pushers) {pc : PushPc Record}
    (busy : pushers producer = some pc) :
    Chain (queue.pushStep pc).1 (pending ++ pc.appended)
      (Function.update pushers producer (queue.pushStep pc).2) := by
  cases pc with
  | clearNext node => simpa [PushPc.appended, MpscQueue.pushStep] using ok.clear busy
  | exchangeTail node => exact ok.exchange busy
  | linkPrev node prev => simpa [PushPc.appended, MpscQueue.pushStep] using ok.link busy

theorem pushStep_head (queue : MpscQueue Record) (pc : PushPc Record) :
    (queue.pushStep pc).1.head = queue.head := by
  cases pc <;> rfl

end Push

/-! The consumer's calls. -/

variable [DecidableEq Record]

/-- No push overwrites the dummy's successor once it is stored. -/
theorem Chain.pushStep_front (ok : Chain queue pending pushers) {producer : Producer}
    {pc : PushPc Record} (busy : pushers producer = some pc) {next : MpscNode Record}
    (loaded : queue.next queue.head = some next) :
    (queue.pushStep pc).1.next queue.head = some next := by
  cases pc with
  | clearNext node =>
      have different : queue.head ≠ .record node := by
        intro same
        apply ok.outside producer node (Or.inl busy)
        simp [chain, same]
      simpa [MpscQueue.pushStep, different] using loaded
  | exchangeTail node => exact loaded
  | linkPrev node prev =>
      have different : queue.head ≠ prev := by
        rintro rfl
        simp [(ok.window producer node queue.head busy).2] at loaded
      simpa [MpscQueue.pushStep, different] using loaded

/-- What one step of `pop` does: it goes on, finds nothing pending, or takes the oldest node. -/
inductive PopResult (queue : MpscQueue Record) (pending : List Record)
    (pushers : Producer → Option (PushPc Record)) :
    MpscQueue Record × (PopPc Record ⊕ Option (MpscNode Record)) → Prop
  | continues (pc : PopPc Record) (sound : pc.Sound queue) :
      PopResult queue pending pushers (queue, .inl pc)
  | null (drained : pending = []) : PopResult queue pending pushers (queue, .inr none)
  | takes (node : Record) (rest : List Record) (front : pending = node :: rest)
      (ok : Chain { queue with head := .record node } rest pushers) :
      PopResult queue pending pushers
        ({ queue with head := .record node }, .inr (some (.record node)))

theorem Chain.popStep (ok : Chain queue pending pushers) {pc : PopPc Record}
    (sound : pc.Sound queue) : PopResult queue pending pushers (queue.popStep pc) := by
  have reload : PopResult queue pending pushers (queue.popStep .loadNext) := by
    cases loaded : queue.next queue.head with
    | none => simpa [MpscQueue.popStep, loaded] using .continues _ rfl
    | some next => simpa [MpscQueue.popStep, loaded] using .continues _ loaded
  cases pc with
  | loadNext => exact reload
  | compareTail head =>
      obtain rfl : head = queue.head := sound
      by_cases same : queue.tail = queue.head
      · simpa [MpscQueue.popStep, same] using .null (ok.drained same)
      · simpa [MpscQueue.popStep, same] using .continues _ rfl
  | spin head =>
      obtain rfl : head = queue.head := sound
      cases loaded : queue.next queue.head with
      | none => simpa [MpscQueue.popStep, loaded] using .continues _ rfl
      | some next => simpa [MpscQueue.popStep, loaded] using .continues _ loaded
  | advance next =>
      obtain ⟨node, rest, rfl, rfl⟩ := ok.front sound
      exact .takes node rest rfl (ok.advance sound)

theorem popStep_agree (left right : MpscQueue Record) (sameHead : left.head = right.head)
    (sameTail : left.tail = right.tail) (loads : left.next left.head = right.next right.head)
    {pc : PopPc Record} (sound : pc.Sound left) :
    (left.popStep pc).2 = (right.popStep pc).2 ∧
      (left.popStep pc).1.head = (right.popStep pc).1.head ∧
      (left.popStep pc).1.tail = (right.popStep pc).1.tail := by
  obtain ⟨leftNext, tail, head⟩ := left
  obtain ⟨rightNext, rightTail, rightHead⟩ := right
  obtain rfl : head = rightHead := sameHead
  obtain rfl : tail = rightTail := sameTail
  change leftNext head = rightNext head at loads
  cases pc with
  | loadNext => cases loaded : leftNext head <;> simp [MpscQueue.popStep, ← loads, loaded]
  | compareTail place => by_cases same : tail = place <;> simp [MpscQueue.popStep, same]
  | spin place =>
      obtain rfl : place = head := sound
      cases loaded : leftNext place <;> simp [MpscQueue.popStep, ← loads, loaded]
  | advance node => exact ⟨rfl, rfl, rfl⟩

/-- `empty` answers true only when nothing is pending at its load of `tail_`. -/
theorem Chain.emptyStep (ok : Chain queue pending pushers) {pc : EmptyPc Record}
    (sound : pc.Sound queue) :
    (∃ later, queue.emptyStep pc = .inl later ∧ later.Sound queue) ∨
      queue.emptyStep pc = .inr false ∨ queue.emptyStep pc = .inr true ∧ pending = [] := by
  cases pc with
  | loadNext =>
      cases loaded : queue.next queue.head with
      | none => exact Or.inl ⟨.compareTail queue.head, by simp [MpscQueue.emptyStep, loaded], rfl⟩
      | some next => exact Or.inr (Or.inl (by simp [MpscQueue.emptyStep, loaded]))
  | compareTail head =>
      obtain rfl : head = queue.head := sound
      by_cases same : queue.tail = queue.head
      · exact Or.inr (Or.inr ⟨by simp [MpscQueue.emptyStep, same], ok.drained same⟩)
      · exact Or.inr (Or.inl (by simp [MpscQueue.emptyStep, same]))

end MpscQueue

end MyServer
