import BulkSync.Algorithms.PageRank
import BulkSync.Proofs.Graph.Index
import BulkSync.Proofs.Run.Halting
import BulkSync.Proofs.Run.Step

set_option autoImplicit false

namespace BulkSync

theorem Vertex.setProperty_setProperty (v : Vertex) (key : String) (old new : Scalar) :
    (v.setProperty key old).setProperty key new = v.setProperty key new := by
  have properties : (v.properties.insert key old).insert key new = v.properties.insert key new := by
    refine Std.ExtTreeMap.ext_getElem? fun name => ?_
    simp only [Std.ExtTreeMap.getElem?_insert]
    split <;> rfl
  simp only [setProperty, properties]

namespace PageRank

def received (rank : VertexId → Float) (vertices : List Vertex) (id : VertexId) : List Float :=
  vertices.flatMap fun u =>
    (u.outEdges.filter (· = id)).map fun _ => rank u.id / Float.ofNat u.outDegree

/-- The rank of a vertex after superstep `s`. -/
def rank (p : PageRank) (vertices : List Vertex) : (s : Nat) → VertexId → Float
  | 0, _ => 1.0 / p.vertexCount
  | s + 1, id =>
    p.alpha * sum (received (rank p vertices s) vertices id) + (1.0 - p.alpha) / p.vertexCount

section Execution

variable (p : PageRank) (v : Vertex) (messages : List Float) (m : Memory)

def newRank (iteration : Nat) : Float :=
  if iteration = 0 then p.seed else p.next (sum messages)

theorem calls_sendAll_bind {M α : Type} (message : M) (targets : List VertexId)
    (next : Unit → Action M α) :
    ((Action.sendAll message targets).bind next).calls m =
      targets.map (.send · message) ++ (next ()).calls m := by
  induction targets with
  | nil => rfl
  | cons target rest ih => exact congrArg (Call.send target message :: ·) ih

theorem result_sendAll_bind {M α : Type} (message : M) (targets : List VertexId)
    (next : Unit → Action M α) :
    ((Action.sendAll message targets).bind next).result m = (next ()).result m := by
  induction targets with
  | nil => rfl
  | cons target rest ih => exact ih

-- A vertex without edges sends no message, as if it had sent one along each of them.
theorem execute_eq :
    p.execute v messages = .read .iteration fun iteration =>
      let w := v.setProperty property (.float (p.newRank messages iteration))
      (Action.sendAll (share (p.newRank messages iteration) w) v.outEdges).bind fun _ =>
        .done (.ok (), w) := by
  refine congrArg (Action.read .iteration) (funext fun iteration => ?_)
  by_cases sends : 0 < v.outDegree
  · exact if_pos sends
  · have none : v.outEdges = [] := List.length_eq_zero_iff.1 (Nat.eq_zero_of_not_pos sends)
    rw [none]
    exact if_neg sends

theorem calls_execute :
    (p.execute v messages).calls m =
      .read .iteration m.iteration ::
        v.outEdges.map (.send · (share (p.newRank messages m.iteration) v)) := by
  rw [execute_eq]
  refine congrArg (Call.read .iteration m.iteration :: ·) ?_
  exact (calls_sendAll_bind m _ _ _).trans (List.append_nil _)

theorem result_execute :
    (p.execute v messages).result m =
      (.ok (), v.setProperty property (.float (p.newRank messages m.iteration))) := by
  rw [execute_eq]
  exact result_sendAll_bind m _ _ _

end Execution

theorem filterMap_sentTo {M : Type} (target : VertexId) (message : M) (edges : List VertexId) :
    (edges.map (Call.send · message)).filterMap (·.sentTo target) =
      (edges.filter (· = target)).map fun _ => message := by
  induction edges with
  | nil => rfl
  | cons edge rest ih => by_cases same : edge = target <;> simp_all [Call.sentTo]

section Supersteps

variable (p : PageRank) (vertices : List Vertex)

-- What superstep `s` finds: the vertices and their messages.
def held : (s : Nat) → Vertex → Vertex
  | 0, v => v
  | s + 1, v => v.setProperty property (.float (rank p vertices s v.id))

def incoming : (s : Nat) → VertexId → List Float
  | 0, _ => []
  | s + 1, id => received (rank p vertices s) vertices id

theorem held_fields (s : Nat) (v : Vertex) :
    (held p vertices s v).id = v.id ∧ (held p vertices s v).outEdges = v.outEdges ∧
      (held p vertices s v).halted = v.halted := by
  cases s <;> exact ⟨rfl, rfl, rfl⟩

theorem wake_held (inbox : Inbox Float) (s : Nat) {v : Vertex} (active : v.halted = false) :
    inbox.wake (held p vertices s v) = held p vertices s v := by
  have running := (held_fields p vertices s v).2.2.trans active
  rw [Inbox.wake_eq]
  split
  · rfl
  · rw [Vertex.activate, ← running]

theorem setProperty_held (s : Nat) (v : Vertex) :
    (held p vertices s v).setProperty property (.float (rank p vertices s v.id)) =
      held p vertices (s + 1) v := by
  cases s with
  | zero => rfl
  | succ s => exact v.setProperty_setProperty property _ _

theorem newRank_incoming (s : Nat) (id : VertexId) :
    p.newRank (incoming p vertices s id) s = rank p vertices s id := by
  cases s <;> rfl

end Supersteps

-- The run is about to make superstep `s`.
structure Awaits (p : PageRank) (g : Graph) (s : Nat) (r : Run Float) : Prop where
  sound : r.Sound
  executing : r.phase = .execute
  program : r.program = p.program
  unlimited : r.settings.maxSupersteps = none
  iteration : r.memory.iteration = s
  graph : r.graph = { g with vertices := g.vertices.map (held p g.vertices s) }
  inbox : ∀ v ∈ g.vertices, r.inbox.messages v.id = incoming p g.vertices s v.id

section Step

variable {p : PageRank} {g : Graph} {s : Nat} {r : Run Float} (awaits : Awaits p g s r)
  (active : ∀ v ∈ g.vertices, v.halted = false)
include awaits active

theorem work_held {v : Vertex} (member : v ∈ g.vertices) :
    r.callsOf (held p g.vertices s v) =
        .read .iteration s ::
          v.outEdges.map (.send · (rank p g.vertices s v.id / Float.ofNat v.outDegree)) ∧
      r.fateOf (held p g.vertices s v) = (.ok (), held p g.vertices (s + 1) v) := by
  obtain ⟨id, edges, halted⟩ := held_fields p g.vertices s v
  have woken := wake_held p g.vertices r.inbox s (active v member)
  have running : (r.inbox.wake (held p g.vertices s v)).halted = false := by
    rw [woken, halted, active v member]
  have work : r.program.work r.inbox (held p g.vertices s v) =
      p.execute (held p g.vertices s v) (incoming p g.vertices s v.id) := by
    rw [VertexProgram.work, woken, id, awaits.inbox v member, awaits.program]
    rfl
  have share : share (rank p g.vertices s v.id) (held p g.vertices s v) =
      rank p g.vertices s v.id / Float.ofNat v.outDegree := by
    rw [PageRank.share, Vertex.outDegree, edges]
    rfl
  constructor
  · rw [Run.callsOf, Task.ahead_of_active _ _ running, work, calls_execute, awaits.iteration,
      newRank_incoming, edges, share]
  · rw [Run.fateOf, Task.fate_of_active _ _ running, work, result_execute, awaits.iteration,
      newRank_incoming, setProperty_held]

theorem passes_superstep : r.superstep.failure = none := by
  rw [← r.superstepUnder_nil 0, Run.passes_iff awaits.sound.typed, awaits.graph]
  intro w member
  obtain ⟨v, among, rfl⟩ := List.mem_map.1 member
  rw [(work_held awaits active among).2]

theorem vertices_superstep :
    r.superstep.vertices = g.vertices.map (held p g.vertices (s + 1)) := by
  have passes := passes_superstep awaits active
  rw [← r.superstepUnder_nil 0] at passes ⊢
  rw [Run.vertices_superstepUnder awaits.sound.typed passes, awaits.graph, List.map_map]
  refine List.map_congr_left fun v member => ?_
  exact congrArg Prod.snd (work_held awaits active member).2

theorem waiting_superstep (target : VertexId) :
    r.superstep.shared.outbox.waiting target =
      received (rank p g.vertices s) g.vertices target := by
  rw [Run.waiting_superstep awaits.sound.typed (passes_superstep awaits active), awaits.graph,
    List.filterMap_flatMap, List.flatMap_map, received, List.flatMap_def, List.flatMap_def]
  refine congrArg List.flatten (List.map_congr_left fun v member => ?_)
  rw [(work_held awaits active member).1]
  exact filterMap_sentTo target _ v.outEdges

theorem graph_crossed :
    (r.crossed r.superstep).graph =
      { g with vertices := g.vertices.map (held p g.vertices (s + 1)) } := by
  show { r.graph with vertices := r.superstep.vertices } = _
  rw [vertices_superstep awaits active, awaits.graph]

theorem inbox_crossed (indexed : g.Indexed) {v : Vertex} (member : v ∈ g.vertices) :
    (r.crossed r.superstep).inbox.messages v.id = incoming p g.vertices (s + 1) v.id := by
  have known : r.graph.contains v.id = true := by
    have index : r.graph.index = g.index := by rw [awaits.graph]
    rw [Graph.contains, index]
    exact (indexed.contains_iff v.id).2 (List.mem_map_of_mem member)
  rw [Run.messages_crossed, if_pos known, waiting_superstep awaits active]
  rfl

omit active in
theorem iteration_crossed : (r.crossed r.superstep).memory.iteration = s := by
  rw [← r.superstepUnder_nil 0, Run.iteration_crossed awaits.sound, awaits.iteration]

omit active in
theorem verdict_crossed :
    (r.crossed r.superstep).verdict =
      (.ok (p.totalIterations.toNat ≤ s + 1), (r.crossed r.superstep).memory) := by
  show r.program.terminate.runOn (r.crossed r.superstep).memory = _
  rw [awaits.program, ← iteration_crossed awaits]
  rfl

theorem step_awaits (indexed : g.Indexed) :
    r.step.2.graph = { g with vertices := g.vertices.map (held p g.vertices (s + 1)) } ∧
      (p.totalIterations.toNat ≤ s + 1 → r.step.1 = .ok .halted ∧ r.step.2.phase = .halted ∧
        r.step.2.memory.iteration = s) ∧
      (s + 1 < p.totalIterations.toNat →
        r.step.1 = .ok .continues ∧ Awaits p g (s + 1) r.step.2) := by
  have ended := Run.ended_stepUnder awaits.sound awaits.executing ⟨[], 0⟩
  rw [Run.superstepUnder_nil, Run.stepUnder_nil] at ended
  have passes := passes_superstep awaits active
  have verdict := verdict_crossed awaits
  have graph := graph_crossed awaits active
  have iteration := iteration_crossed awaits
  rcases stepped : r.step with ⟨outcome, next⟩
  rw [stepped] at ended
  -- Nothing fails and nothing limits the run, so that the test alone decides.
  cases ended with
  | aborted fails => cases fails.symm.trans passes
  | broken _ asked => cases asked.symm.trans verdict
  | limited _ _ bound => cases bound.symm.trans awaits.unlimited
  | halted _ asked =>
    obtain ⟨enough, rfl⟩ := Prod.mk.inj (asked.symm.trans verdict)
    have enough : p.totalIterations.toNat ≤ s + 1 := by simpa using enough
    refine ⟨graph, fun _ => ⟨rfl, rfl, ?_⟩, fun below => absurd below (Nat.not_lt.2 enough)⟩
    -- Completing memory takes back the advance that is made after each test.
    exact iteration
  | continued _ asked =>
    obtain ⟨short, rfl⟩ := Prod.mk.inj (asked.symm.trans verdict)
    have short : ¬p.totalIterations.toNat ≤ s + 1 := by simpa using short
    obtain ⟨sound, executing, -⟩ :=
      awaits.sound.continues awaits.executing ((r.stepUnder_nil 0).trans stepped)
    refine ⟨graph, fun enough => absurd enough short, fun _ => ⟨rfl, ?_⟩⟩
    constructor
    case sound => exact sound
    case executing => exact executing
    case program => exact awaits.program
    case unlimited => exact awaits.unlimited
    case iteration => exact congrArg (· + 1) iteration
    case graph => exact graph
    case inbox => exact fun v member => inbox_crossed awaits active indexed member

end Step

section Run

variable {p : PageRank} {g : Graph} {first : Run Float}

theorem awaits_of_start {jobs : List Registered} {settings : Settings}
    {host : Host} (unlimited : settings.maxSupersteps = none)
    (began : Run.start g p.program jobs settings host = .ok first) : Awaits p g 0 first := by
  have fresh := Run.fresh_of_start began
  obtain ⟨-, -, declared, written, -, -, made⟩ := Run.start_eq_ok began
  constructor
  case sound => exact fresh.sound
  case executing => exact fresh.phase
  case program => exact fresh.program
  case unlimited => rwa [made]
  case iteration => exact fresh.iteration
  case graph =>
    have same : g.vertices.map (held p g.vertices 0) = g.vertices := List.map_id _
    rw [same]
    exact fresh.graph
  case inbox =>
    intro v _
    rw [fresh.inbox]
    rfl

theorem awaits_after (indexed : g.Indexed) (active : ∀ v ∈ g.vertices, v.halted = false)
    (begins : Awaits p g 0 first) {s : Nat} (below : s < p.totalIterations.toNat) :
    Awaits p g s (first.after s) := by
  induction s with
  | zero => exact begins
  | succ s ih =>
    have awaits := ih (Nat.lt_of_succ_lt below)
    exact ((step_awaits awaits active indexed).2.2 below).2

theorem totalIterations_pos {alpha vertexCount : Option Float} {totalIterations : Option UInt64}
    (built : build alpha totalIterations vertexCount = .ok p) : 0 < p.totalIterations.toNat := by
  have some : p.totalIterations ≠ 0 := by
    unfold build validate at built
    repeat' split at built
    all_goals cases built
    assumption
  exact Nat.pos_of_ne_zero fun none => some (UInt64.toNat_inj.1 none)

-- Two edges side by side, one from a vertex to itself, and one to a vertex that is missing.
def tangle : Graph :=
  (Graph.ofEdges [(⟨0⟩, ⟨1⟩), (⟨0⟩, ⟨1⟩), (⟨1⟩, ⟨1⟩)]).update ⟨0⟩ (·.addOutEdge ⟨9⟩)

end Run

end PageRank

end BulkSync
