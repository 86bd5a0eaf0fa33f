import BulkSync.MapReduce.Registered
import BulkSync.Script.Expr
import BulkSync.Script.Key

set_option autoImplicit false

namespace BulkSync.Script

inductive Aggregate
  | sum
  | count
  | least
  | most
  | first
  | last
  | each
  | none
  | twice
  | digits
  | evenKeys
  | fail (reason : String)
  | failAbove (limit : Int64)
  | rekey (modulus : Int64)

namespace Aggregate

def apply (a : Aggregate) (key : Key) (values : List Int64) : Emission Key Int64 :=
  let under (key : Key) (value : Int64) : Emission Key Int64 := .of [⟨key, value⟩]
  let all (values : List Int64) : Emission Key Int64 := .of (values.map (Entry.mk key))
  match a with
  | .sum => under key (total values)
  | .count => under key (Int64.ofNat values.length)
  | .least => all (least? values).toList
  | .most => all (most? values).toList
  | .first => all values.head?.toList
  | .last => all values.getLast?.toList
  | .each => all values
  | .none => .of []
  | .twice => all [total values, total values]
  | .digits => under key (values.foldl (fun a v => a * 10 + v) 0)
  | .evenKeys =>
    match key with
    | .integer i => if i.toInt % 2 = 0 then under key (total values) else .of []
    | _ => under key (total values)
  | .fail reason => .fail (.other reason)
  | .failAbove limit =>
    if limit < total values then
      .fail (.other s!"sum {(total values).toInt} of key {key.describe} is too large")
    else under key (total values)
  | .rekey modulus =>
    match key with
    | .integer i => under (.integer (Operation.mod.apply i modulus)) (total values)
    | _ => under key (total values)

end Aggregate

inductive Lift
  | never
  | always
  | upTo (limit : Int64)

def Lift.apply (l : Lift) (e : Entry Key Int64) : Option (Entry Key Int64) :=
  match l with
  | .never => none
  | .always => some e
  | .upTo limit => if e.value ≤ limit then some e else none

inductive Finalizer
  | sum
  | count
  | nonempty
  | keys
  | pairs
  | fail (reason : String)
  | codec (reason : String)
  | blob (bytes : List UInt8)
  | single (reason : String)

def Finalizer.apply (f : Finalizer) (results : List (Entry Key Int64)) :
    Except String (Except Memory.Error Memory.Value) :=
  let plain (e : Entry Key Int64) : Entry String Int64 := ⟨e.key.plain, e.value⟩
  match f with
  | .sum => .ok (Storable.store (total (results.map Entry.value)))
  | .count => .ok (Storable.store (Int64.ofNat results.length))
  | .nonempty => .ok (Storable.store (!results.isEmpty))
  | .keys =>
    let names := ",".intercalate (results.map (·.key.plain))
    .ok (Storable.store (Text.Utf8.encode names.toList))
  | .pairs => .ok (Storable.store (results.map plain))
  | .fail reason => .error reason
  | .codec reason => .ok (.error (.codec (.refused reason)))
  | .blob bytes => .ok (Storable.store bytes)
  | .single reason =>
    match results with
    | [e] => .ok (Storable.store e.value)
    | _ => .error s!"{reason}: {results.length} results"

inductive Emitted
  | unit
  | text (s : String)
  | integer (e : Expr)
  | label
  | property (name : String)

inductive Emit
  | fail (guard : Option Cond) (reason : String)
  | entry (guard : Option Cond) (key : Emitted) (value : Expr)

-- A job is run when memory is out of reach.
def noMemory : Access Id where
  ask
    | .value key => .error (.absent key)
    | .integer key => .error (.absent key)
    | .boolean key => .error (.absent key)
    | .blob key => .error (.absent key)
    | .contains _ => false
    | .keys => []
    | .declared => []
    | .iteration => 0
    | .runtime => ⟨0, 0⟩
    | .frozen => false

def Emitted.key? (scope : Scope) : Emitted → ExceptT Cause Id (Option Key)
  | .unit => pure (some .unit)
  | .text s => pure (some (.text s))
  | .integer e => return some (.integer (← e.eval noMemory scope))
  | .label => pure (scope.vertex.map fun v => .text v.label)
  | .property name =>
    pure ((scope.vertex.bind (·.property name)).map fun value => .text value.display)

def Emit.entryOf? (scope : Scope) : Emit → ExceptT Cause Id (Option (Entry Key Int64))
  | .fail guard reason => do
    if ← holds noMemory scope guard then throw (.other reason) else return none
  | .entry guard key value => do
    if ← holds noMemory scope guard then
      let key ← key.key? scope
      let value ← value.eval noMemory scope
      return key.map (Entry.mk · value)
    else return none

def emitAll (scope : Scope) : List Emit → Emission Key Int64
  | [] => .of []
  | e :: rest =>
    match (e.entryOf? scope).run with
    | .error cause => .fail cause
    | .ok entry =>
      let next := emitAll scope rest
      { next with entries := entry.toList ++ next.entries }

structure Job where
  memoryKey : String
  kind : Memory.Kind
  -- Jobs of different variants or kinds are different implementations.
  variant : Nat
  stages : List Stage
  map : List Emit
  combine : Aggregate
  reduce : Aggregate
  multiplicity : Multiplicity
  lift : Lift
  finalize : Finalizer

def Job.compile (j : Job) : BulkSync.Job Key Int64 Key Int64 where
  implementation := s!"ScriptJob<{j.kind.name}, {j.variant}>"
  memoryKey := j.memoryKey
  participates := j.stages.contains
  describeKey := Key.describe
  map seen v := emitAll ⟨some v, [], seen.length⟩ j.map
  combine := j.combine.apply
  reduce := j.reduce.apply
  multiplicity := j.multiplicity
  lift := j.lift.apply
  kind := j.kind
  finalize := j.finalize.apply

structure MinimalJob where
  memoryKey : String
  stages : List Stage
  map : List Emit

def MinimalJob.compile (j : MinimalJob) : BulkSync.Job Key Int64 Key Int64 where
  implementation := "driver::script::MinimalJob"
  memoryKey := j.memoryKey
  participates := j.stages.contains
  describeKey := Key.describe
  map _ v := emitAll ⟨some v, [], 0⟩ j.map
  kind := .integer
  finalize results := .ok (Storable.store (Int64.ofNat results.length))

end BulkSync.Script
