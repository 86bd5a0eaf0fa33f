import Mathlib.Algebra.BigOperators.Group.List.Lemmas
import Mathlib.Algebra.GroupWithZero.Nat
import BulkSync.Proofs.MapReduce.Grouping
import BulkSync.Proofs.Schedule.Discipline

set_option autoImplicit false

namespace BulkSync

variable {M : Type}

section Senders

inductive Dispatch (M : Type) where
  | send (target : VertexId) (message : M)
  | sendAll (targets : List VertexId) (message : M)

namespace Dispatch

def action : Dispatch M → Action M Unit
  | send target message => .send target message (.done ())
  | sendAll targets message => .sendAll message targets

-- A message for each target that is listed, as often as it is listed.
def posts : Dispatch M → List (VertexId × M)
  | send target message => [(target, message)]
  | sendAll targets message => targets.map (·, message)

end Dispatch

-- The code of a sender: its calls, one after the other.
def sender : List (Dispatch M) → Action M Unit
  | [] => .done ()
  | d :: rest => d.action.bind fun _ => sender rest

def postsOf (dispatches : List (Dispatch M)) : List (VertexId × M) :=
  dispatches.flatMap Dispatch.posts

-- What a list of posts has for a target, in its order.
def postedTo (target : VertexId) (posts : List (VertexId × M)) : List M :=
  posts.filterMap fun p => if p.1 = target then some p.2 else none

theorem length_postedTo (target : VertexId) (posts : List (VertexId × M)) :
    (postedTo target posts).length = (posts.map Prod.fst).count target := by
  rw [postedTo, List.length_filterMap_eq_countP, List.count, List.countP_map]
  refine List.countP_congr fun p _ => ?_
  by_cases same : p.1 = target <;> simp [same]

def Action.post : List (VertexId × M) → Action M Unit
  | [] => .done ()
  | (target, message) :: rest => .send target message (post rest)

def Call.post (p : VertexId × M) : Call M := .send p.1 p.2

theorem sentTo_posts (target : VertexId) (posts : List (VertexId × M)) :
    (posts.map Call.post).filterMap (·.sentTo target) = postedTo target posts :=
  List.filterMap_map

theorem Action.post_append (posts more : List (VertexId × M)) :
    (post posts).bind (fun _ => post more) = post (posts ++ more) := by
  induction posts with
  | nil => rfl
  | cons p rest ih => exact congrArg (Action.send p.1 p.2) ih

theorem Dispatch.action_eq_post (d : Dispatch M) : d.action = .post d.posts := by
  cases d with
  | send => rfl
  | sendAll targets message =>
    show Action.sendAll message targets = .post (targets.map (·, message))
    induction targets with
    | nil => rfl
    | cons target rest ih => exact congrArg (Action.send target message) ih

theorem sender_eq_post (dispatches : List (Dispatch M)) :
    sender dispatches = .post (postsOf dispatches) := by
  induction dispatches with
  | nil => rfl
  | cons d rest ih => rw [sender, ih, d.action_eq_post, Action.post_append, postsOf, postsOf,
      List.flatMap_cons]

theorem map_sender (senders : List (List (Dispatch M))) :
    senders.map sender = (senders.map postsOf).map .post := by
  rw [List.map_map]
  exact List.map_congr_left fun dispatches _ => sender_eq_post dispatches

end Senders

section Interleavings

/-- Senders at work on what they share. Each turn makes the next call that one of them has left,
until no call is left; a call is noted with the position of who made it. -/
inductive Interleaving : List (Action M Unit) → Shared M → List (Nat × Call M) → Shared M → Prop
  | idle {senders : List (Action M Unit)} {s : Shared M} (done : ∀ a ∈ senders, a = .done ()) :
      Interleaving senders s [] s
  | turn {senders : List (Action M Unit)} {s next last : Shared M} {i : Nat}
      {a rest : Action M Unit} {call : Call M} {calls : List (Nat × Call M)}
      (found : senders[i]? = some a) (makes : a.next? s = some (call, rest, next))
      (later : Interleaving (senders.set i rest) next calls last) :
      Interleaving senders s ((i, call) :: calls) last

variable {s last : Shared M} {calls : List (Nat × Call M)}

theorem Interleaving.shared {senders : List (Action M Unit)}
    (interleaved : Interleaving senders s calls last) :
    last = s.absorbAll (calls.map Prod.snd) := by
  induction interleaved with
  | idle => rfl
  | turn found makes later ih =>
    obtain ⟨rfl, -, -⟩ := Action.next?_eq_some makes
    exact ih

theorem Interleaving.posts_induction {P : List (List (VertexId × M)) → List (Nat × Call M) → Prop}
    (idle : ∀ queues, (∀ queue ∈ queues, queue = []) → P queues [])
    (turn : ∀ queues i p rest calls, queues[i]? = some (p :: rest) → P (queues.set i rest) calls →
      P queues ((i, .post p) :: calls))
    {queues : List (List (VertexId × M))}
    (interleaved : Interleaving (queues.map .post) s calls last) : P queues calls := by
  generalize same : queues.map Action.post = senders at interleaved
  induction interleaved generalizing queues with
  | idle done =>
    subst same
    refine idle queues fun queue member => ?_
    have nothing := done _ (List.mem_map_of_mem member)
    cases queue with
    | nil => rfl
    | cons p rest => cases nothing
  | @turn _ _ _ _ i _ _ _ _ found makes later ih =>
    subst same
    rw [List.getElem?_map, Option.map_eq_some_iff] at found
    obtain ⟨queue, found, rfl⟩ := found
    cases queue with
    | nil => cases makes
    | cons p rest =>
      cases makes
      exact turn queues i p rest _ found (ih (by rw [List.map_set]))

theorem callsBy_turn_iff {queues : List (List (VertexId × M))} {i : Nat} {p : VertexId × M}
    {queue : List (VertexId × M)} (found : queues[i]? = some (p :: queue))
    (rest : List (Nat × Call M)) (j : Nat) :
    callsBy j ((i, .post p) :: rest) = (queues[j]?.getD []).map Call.post ↔
      callsBy j rest = ((queues.set i queue)[j]?.getD []).map Call.post := by
  obtain ⟨within, held⟩ := List.getElem?_eq_some_iff.1 found
  rw [callsBy_cons]
  by_cases same : i = j
  · subst same
    simp [within, held]
  · simp [same]

theorem callsBy_of_posts {queues : List (List (VertexId × M))}
    (interleaved : Interleaving (queues.map .post) s calls last) (j : Nat) :
    callsBy j calls = (queues[j]?.getD []).map Call.post := by
  refine interleaved.posts_induction
    (P := fun queues calls => callsBy j calls = (queues[j]?.getD []).map Call.post) ?idle ?turn
  case idle =>
    intro queues empty
    cases found : queues[j]? with
    | none => rfl
    | some queue =>
      rw [empty queue (List.mem_of_getElem? found)]
      rfl
  case turn => exact fun queues i p queue rest found ih => (callsBy_turn_iff found rest j).2 ih

theorem flatten_set_perm {α : Type} {queues : List (List α)} {i : Nat} {a : α} {rest : List α}
    (found : queues[i]? = some (a :: rest)) :
    queues.flatten.Perm (a :: (queues.set i rest).flatten) := by
  induction queues generalizing i with
  | nil => cases found
  | cons queue later ih =>
    cases i with
    | zero =>
      obtain rfl : queue = a :: rest := by simpa using found
      exact .refl _
    | succ i =>
      have perm := ih (i := i) (by simpa using found)
      simpa using (perm.append_left queue).trans List.perm_middle

theorem callsBy_sublist (i : Nat) (calls : List (Nat × Call M)) :
    (callsBy i calls).Sublist (calls.map Prod.snd) := by
  induction calls with
  | nil => exact .slnil
  | cons made rest ih =>
    obtain ⟨j, call⟩ := made
    rw [callsBy_cons]
    split
    next => exact ih.cons_cons call
    next => exact ih.cons call

theorem perm_of_posts {queues : List (List (VertexId × M))}
    (interleaved : Interleaving (queues.map .post) s calls last) :
    (calls.map Prod.snd).Perm (queues.flatten.map Call.post) := by
  refine interleaved.posts_induction
    (P := fun queues calls => (calls.map Prod.snd).Perm (queues.flatten.map Call.post)) ?idle ?turn
  case idle =>
    intro queues empty
    rw [List.flatten_eq_nil_iff.2 empty]
    exact .nil
  case turn =>
    intro queues i p queue rest found ih
    have perm := (flatten_set_perm found).map Call.post
    exact (ih.cons (Call.post p)).trans perm.symm

theorem Interleaving.of_callsBy {queues : List (List (VertexId × M))}
    (kept : ∀ i, callsBy i calls = (queues[i]?.getD []).map Call.post) :
    Interleaving (queues.map .post) s calls (s.absorbAll (calls.map Prod.snd)) := by
  induction calls generalizing queues s with
  | nil =>
    refine .idle fun a member => ?_
    obtain ⟨queue, among, rfl⟩ := List.mem_map.1 member
    obtain ⟨i, found⟩ := List.mem_iff_getElem?.1 among
    have empty : queue = [] := by simpa [found, callsBy] using kept i
    rw [empty, Action.post]
  | cons made rest ih =>
    obtain ⟨i, call⟩ := made
    have first := kept i
    rw [callsBy_cons, if_pos rfl] at first
    cases found : queues[i]? with
    | none => simp [found] at first
    | some queue =>
      cases queue with
      | nil => simp [found] at first
      | cons p queue =>
        obtain ⟨rfl, -⟩ : call = .post p ∧ callsBy i rest = queue.map .post := by
          simpa [found] using first
        have later := ih (s := s.absorb (.post p)) fun j =>
          (callsBy_turn_iff found rest j).1 (kept j)
        rw [List.map_set] at later
        exact .turn (by rw [List.getElem?_map, found, Option.map_some]) rfl later

theorem interleaving_iff {queues : List (List (VertexId × M))} :
    Interleaving (queues.map .post) s calls last ↔
      (∀ i, callsBy i calls = (queues[i]?.getD []).map Call.post) ∧
        last = s.absorbAll (calls.map Prod.snd) := by
  constructor
  case mp => exact fun interleaved => ⟨callsBy_of_posts interleaved, interleaved.shared⟩
  case mpr =>
    rintro ⟨kept, rfl⟩
    exact .of_callsBy kept

end Interleavings

section Inboxes

theorem Inbox.size_eq_sum (inbox : Inbox M) :
    inbox.size = (inbox.delivered.keys.map fun id => (inbox.messages id).length).sum := by
  have values : inbox.delivered.values = inbox.delivered.keys.map inbox.messages := by
    rw [Groups.values_eq_map_toList, Groups.toList_eq_map_keys, List.map_map]
    rfl
  rw [Inbox.size, values, List.foldr_map, List.sum, List.foldr_map]

theorem Inbox.isEmpty_iff (inbox : Inbox M) :
    inbox.isEmpty = true ↔ ∀ id, inbox.messages id = [] := by
  rw [Inbox.isEmpty, decide_eq_true_iff, Inbox.size_eq_sum, List.sum_eq_zero_iff_forall_eq_nat]
  simp only [List.forall_mem_map, List.length_eq_zero_iff, Std.ExtTreeMap.mem_keys]
  constructor
  · intro none id
    by_cases held : id ∈ inbox.delivered
    · exact none id held
    · rw [Inbox.messages, Std.ExtTreeMap.getElem?_eq_none held, Option.getD_none]
  · exact fun none id _ => none id

theorem Shared.full_absorbAll (calls : List (Call M)) {s : Shared M}
    (full : Groups.Full s.outbox.pending) : Groups.Full (s.absorbAll calls).outbox.pending := by
  induction calls generalizing s with
  | nil => exact full
  | cons call rest ih =>
    refine ih (s := s.absorb call) ?_
    cases call with
    | read | write => exact full
    | send target message =>
      exact Groups.full_alter (message :: ·) full (List.cons_ne_nil _ _)

theorem Outbox.full_deliver {outbox : Outbox M} (full : Groups.Full outbox.pending)
    (known : VertexId → Bool) : Groups.Full (outbox.deliver known).delivered := by
  intro target messages found
  rw [Outbox.deliver, Std.ExtTreeMap.getElem?_filterMap', Option.bind_eq_some_iff] at found
  obtain ⟨sent, held, kept⟩ := found
  cases isKnown : known target with
  | false => simp [isKnown] at kept
  | true =>
    obtain rfl : sent.reverse = messages := by simpa [isKnown] using kept
    simpa using full target sent held

variable {known : VertexId → Bool} {inbox : Inbox M} {targets : List VertexId}

theorem Inbox.size_of_counts (full : Groups.Full inbox.delivered)
    (counts : ∀ id, (inbox.messages id).length = if known id then targets.count id else 0) :
    inbox.size = targets.countP known := by
  have keys : inbox.delivered.keys.Perm (targets.dedup.filter known) := by
    refine (List.perm_ext_iff_of_nodup Std.ExtTreeMap.nodup_keys
      ((List.nodup_dedup _).filter _)).2 fun id => ?_
    have held : id ∈ inbox.delivered ↔ 0 < (inbox.messages id).length := by
      rw [Groups.mem_iff_of_full full, List.length_pos_iff]
      rfl
    rw [Std.ExtTreeMap.mem_keys, held, counts, List.mem_filter, List.mem_dedup]
    cases known id <;> simp [List.count_pos_iff]
  have lengths : (targets.dedup.filter known).map (fun id => (inbox.messages id).length) =
      (targets.dedup.filter known).map fun id => targets.count id := by
    refine List.map_congr_left fun id member => ?_
    rw [counts, if_pos (List.mem_filter.1 member).2]
  rw [Inbox.size_eq_sum, (keys.map _).sum_eq, lengths, List.sum_map_count_dedup_filter_eq_countP]

end Inboxes

structure Faithful (senders : List (List (Dispatch M))) (calls : List (Nat × Call M))
    (known : VertexId → Bool) (inbox : Inbox M) : Prop where
  -- The calls were made in the order that each sender has.
  order (i : Nat) : callsBy i calls = (postsOf (senders[i]?.getD [])).map .post
  messages (target : VertexId) : inbox.messages target =
    if known target then (calls.map Prod.snd).filterMap (·.sentTo target) else []
  -- Among all messages for a target those of one sender keep their order.
  own (i : Nat) {target : VertexId} (isKnown : known target = true) :
    (postedTo target (postsOf (senders[i]?.getD []))).Sublist (inbox.messages target)
  -- As a multiset the messages have nothing to do with the order of the calls.
  multiset {target : VertexId} (isKnown : known target = true) :
    (inbox.messages target).Perm (postedTo target (senders.flatMap postsOf))
  woken (target : VertexId) : inbox.hasMessages target = true ↔ inbox.messages target ≠ []
  size : inbox.size = (senders.flatMap postsOf).countP fun p => known p.1
  isEmpty : inbox.isEmpty = true ↔ ((senders.flatMap postsOf).countP fun p => known p.1) = 0

theorem Interleaving.faithful {senders : List (List (Dispatch M))} {m : Memory} {last : Shared M}
    {calls : List (Nat × Call M)}
    (interleaved : Interleaving (senders.map sender) ⟨m, .empty⟩ calls last)
    (known : VertexId → Bool) : Faithful senders calls known (last.outbox.deliver known) := by
  rw [map_sender] at interleaved
  obtain ⟨kept, rfl⟩ := interleaving_iff.1 interleaved
  have order (i : Nat) : callsBy i calls = (postsOf (senders[i]?.getD [])).map .post := by
    rw [kept, List.getElem?_map]
    cases senders[i]? <;> rfl
  have received (target : VertexId) :
      ((Shared.absorbAll ⟨m, .empty⟩ (calls.map Prod.snd)).outbox.deliver known).messages target =
        if known target then (calls.map Prod.snd).filterMap (·.sentTo target) else [] := by
    rw [Outbox.messages_deliver, Shared.waiting_absorbAll]
    simp [Outbox.waiting, Outbox.empty]
  have posted (target : VertexId) : ((calls.map Prod.snd).filterMap (·.sentTo target)).Perm
      (postedTo target (senders.flatMap postsOf)) := by
    have perm := (perm_of_posts interleaved).filterMap (·.sentTo target)
    rwa [sentTo_posts, ← List.flatMap_def] at perm
  have size : ((Shared.absorbAll ⟨m, .empty⟩ (calls.map Prod.snd)).outbox.deliver known).size =
      (senders.flatMap postsOf).countP fun p => known p.1 := by
    have full := Shared.full_absorbAll (calls.map Prod.snd) (s := ⟨m, .empty⟩) Groups.full_empty
    rw [Inbox.size_of_counts (Outbox.full_deliver full known) fun target => ?_, List.countP_map]
    · rfl
    · rw [received]
      split
      · rw [(posted target).length_eq, length_postedTo]
      · rfl
  constructor
  case order => exact order
  case messages => exact received
  case own =>
    intro i target isKnown
    have sublist := (callsBy_sublist i calls).filterMap (·.sentTo target)
    rw [order, sentTo_posts] at sublist
    rwa [received, if_pos isKnown]
  case multiset =>
    intro target isKnown
    rw [received, if_pos isKnown]
    exact posted target
  case woken =>
    intro target
    simp [Inbox.hasMessages]
  case size => exact size
  case isEmpty => rw [Inbox.isEmpty, decide_eq_true_iff, size]

-- The copies of a message for several targets are not sent at once: another sender comes between.
def crowd : List (List (Dispatch String)) :=
  [[.send ⟨1⟩ "rise", .sendAll [⟨2⟩, ⟨1⟩, ⟨1⟩] "fall"], [.send ⟨1⟩ "turn", .send ⟨9⟩ "lost"]]

def crowdCalls : List (Nat × Call String) :=
  [(0, .send ⟨1⟩ "rise"), (0, .send ⟨2⟩ "fall"), (1, .send ⟨1⟩ "turn"), (0, .send ⟨1⟩ "fall"),
    (1, .send ⟨9⟩ "lost"), (0, .send ⟨1⟩ "fall")]

theorem Interleaving.faithful_crowd :
    let last := Shared.absorbAll ⟨.empty, .empty⟩ (crowdCalls.map Prod.snd)
    let inbox := last.outbox.deliver fun id => id.val < 9
    Interleaving (crowd.map sender) ⟨.empty, .empty⟩ crowdCalls last ∧
      Faithful crowd crowdCalls (fun id => id.val < 9) inbox ∧
      inbox.messages ⟨1⟩ = ["rise", "turn", "fall", "fall"] ∧ inbox.messages ⟨9⟩ = [] ∧
      inbox.size = 5 := by
  intro last inbox
  have interleaved : Interleaving (crowd.map sender) ⟨.empty, .empty⟩ crowdCalls last := by
    rw [map_sender, interleaving_iff]
    refine ⟨fun i => ?_, rfl⟩
    match i with
    | 0 => rfl
    | 1 => rfl
    | i + 2 => rfl
  have faithful := interleaved.faithful fun id => id.val < 9
  refine ⟨interleaved, faithful, ?_, ?_, ?_⟩
  · exact faithful.messages ⟨1⟩
  · exact faithful.messages ⟨9⟩
  · exact faithful.size

end BulkSync
