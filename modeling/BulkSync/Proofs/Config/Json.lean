import BulkSync.Config.Json
import BulkSync.Proofs.Config.Persistence
import BulkSync.Proofs.Json.Tree
import BulkSync.Proofs.Wire.Lawful

set_option autoImplicit false

namespace BulkSync

def Scalar.isFinite : Scalar → Bool
  | .float x => x.isFinite
  | .integer _ | .boolean _ | .text _ => true

namespace Config

def Finite (c : Config) : Prop := ∀ name x, c.get? name = some (.float x) → x.isFinite

section Entries

theorem int64?_toInt {n : Json.Number} {i : Int64} (whole : n.int? = some i.toInt) :
    Json.int64? (.number n) = some i := by
  have within : Int64.minValue.toInt ≤ i.toInt ∧ i.toInt ≤ Int64.maxValue.toInt :=
    ⟨i.minValue_le_toInt, i.toInt_le⟩
  simp only [Json.int64?, Json.int?, whole, Option.bind_eq_bind, Option.bind_some, if_pos within]
  exact congrArg some (Int64.ofInt_toInt i)

theorem exists_value (v : Scalar) :
    ∃ j, Json.Reads (writeValue v) j ∧ readValue j = if v.isFinite then some v else none := by
  cases v with
  | boolean b => exact ⟨.boolean b, Json.reads_boolean b, rfl⟩
  | integer i =>
    obtain ⟨n, text, proper, whole⟩ := Json.exists_integer i.toInt
    refine ⟨.number n.number, ?_, ?_⟩
    · show Json.Reads (Json.writeInt i.toInt) _
      exact text ▸ Json.reads_numeral proper
    · show (Scalar.integer <$> Json.int64? _ <|> _) = _
      rw [int64?_toInt whole]
      rfl
  | float x =>
    by_cases finite : x.isFinite
    · obtain ⟨n, text, proper, marked, same⟩ := Json.exists_float finite
      refine ⟨.number n.number, ?_, ?_⟩
      · show Json.Reads (Json.writeFloat x) _
        exact text ▸ Json.reads_numeral proper
      · have fraction : Json.int64? (.number n.number) = none := by
          simp [Json.int64?, Json.int?, Json.Number.int?, marked]
        show (Scalar.integer <$> Json.int64? _ <|> Scalar.float <$> n.number.float? <|> _) = _
        rw [fraction, same, Scalar.isFinite, if_pos finite]
        rfl
    · refine ⟨.null, ?_, (if_neg finite).symm⟩
      show Json.Reads (Json.writeFloat x) _
      rw [Json.writeFloat_of_not_finite (Bool.eq_false_iff.2 finite)]
      exact Json.reads_null
  | text s =>
    obtain ⟨pieces, stands, reads⟩ := Json.exists_text s
    refine ⟨.string pieces, reads, ?_⟩
    show Scalar.text <$> Json.text? pieces = _
    rw [stands]
    rfl

theorem mapM_readValue {tree : Scalar → Json}
    (value : ∀ v, readValue (tree v) = if v.isFinite then some v else none)
    (entries : List (String × Scalar)) :
    ((entries.map fun (name, v) => (name, tree v)).mapM fun (name, j) =>
      (readValue j).map fun v => (name, v)) =
        if entries.all fun e => e.2.isFinite then some entries else none := by
  induction entries with
  | nil => rfl
  | cons entry others ih =>
    obtain ⟨name, v⟩ := entry
    rw [List.map_cons, List.mapM_cons, ih, List.all_cons]
    dsimp only
    rw [value]
    by_cases here : v.isFinite <;> by_cases there : others.all fun e => e.2.isFinite <;>
      simp [here, there]

theorem ofEntries_toList (c : Config) : ofEntries c.entries.toList = c :=
  calc ofEntries c.entries.toList = ⟨Vertex.propertiesOf c.entries.toList⟩ :=
        List.foldl_hom Config.mk fun _ _ => rfl
    _ = c := by rw [Vertex.propertiesOf_toList]

theorem finite_iff (c : Config) :
    c.Finite ↔ (c.entries.toList.all fun e => e.2.isFinite) = true := by
  rw [List.all_eq_true]
  constructor
  · rintro finite ⟨name, v⟩ member
    have found : c.get? name = some v := Std.ExtTreeMap.mem_toList_iff_getElem?_eq_some.1 member
    cases v with
    | float x => exact finite name x found
    | integer | boolean | text => rfl
  · intro all name x found
    exact all (name, .float x) (Std.ExtTreeMap.mem_toList_iff_getElem?_eq_some.2 found)

theorem decode_render_eq (c : Config) :
    Json.decode (Json.render c) =
      if c.entries.toList.all fun e => e.2.isFinite then some c else none := by
  choose tree reads value using exists_value
  obtain ⟨parsed, named, parse⟩ := Json.exists_parse
    (c.entries.toList.map fun (name, v) => ⟨name, writeValue v, tree v, reads v⟩)
  rw [List.map_map] at named parse
  have text : Json.parse (Json.render c) = some (.object parsed) := parse
  have entries := mapM_readValue value c.entries.toList
  rw [Json.decode, text]
  show (Json.namedMembers parsed >>= fun members => members.mapM _ >>= fun entries =>
    some (ofEntries entries)) = _
  rw [named, Option.bind_eq_bind, Option.bind_some]
  refine (congrArg (· >>= fun entries => some (ofEntries entries)) entries).trans ?_
  split
  next => exact congrArg some c.ofEntries_toList
  next => rfl

end Entries

section Stored

variable {c : Config}

theorem Finite.set (finite : c.Finite) {name : String} {value : Scalar} (clean : value.isFinite) :
    (c.set name value).Finite := by
  intro other x found
  by_cases same : name = other
  · subst same
    rw [get?_set_self] at found
    cases found
    exact clean
  · rw [get?_set_of_ne same] at found
    exact finite other x found

theorem Finite.setOption (finite : c.Finite) {name : String} {value : Option Scalar}
    (clean : ∀ v ∈ value, v.isFinite) : (c.setOption name value).Finite := by
  intro other x found
  by_cases same : name = other
  · subst same
    rw [get?_setOption_self] at found
    exact clean _ found
  · rw [get?_setOption_of_ne same] at found
    exact finite other x found

end Stored

end Config

section Parameters

theorem isFinite_of_between {low x high : Float} (least : low.isFinite) (most : high.isFinite)
    (above : low < x) (below : x ≤ high) : x.isFinite := by
  have least : low.toModel.unpack.isFinite := least
  have most : high.toModel.unpack.isFinite := most
  have above : low.toModel.unpack.lt x.toModel.unpack := of_decide_eq_true above
  have below : x.toModel.unpack.le high.toModel.unpack := of_decide_eq_true below
  show x.toModel.unpack.isFinite
  generalize low.toModel.unpack = a, x.toModel.unpack = b, high.toModel.unpack = c at *
  cases b with
  | finite => rfl
  | zero => rfl
  | notANumber => cases a <;> cases above
  | infinity s =>
    cases s with
    | positive =>
      cases c with
      | notANumber | infinity => cases most
      | zero | finite => cases below
    | negative =>
      cases a with
      | notANumber | infinity => cases least
      | zero | finite => cases above

theorem PageRank.finite_of_validate {p : PageRank} (valid : validate p = .ok p) :
    p.alpha.isFinite ∧ p.vertexCount.isFinite := by
  unfold validate at valid
  split_ifs at valid with damping none scale
  simp only [Bool.not_eq_true', Bool.not_eq_false, Bool.and_eq_true, decide_eq_true_eq]
    at damping scale
  have zero : (0.0 : Float).isFinite := rfl
  exact ⟨isFinite_of_between zero rfl damping.1 damping.2, scale.2⟩

theorem Keeper.finite_store (k : Keeper) {x : k.Carrier} (accepted : k.Accepted x) {r : Config}
    (finite : r.Finite) : (k.store x r).Finite := by
  cases k with
  | settings =>
    have counts (value : Option UInt64) :
        ∀ v ∈ value.map fun n => Scalar.integer n.toInt64, v.isFinite := by
      simp [Scalar.isFinite]
    exact ((finite.setOption (counts _)).setOption (counts _)).setOption (counts _)
  | count =>
    have property : ∀ v ∈ x.property.map Scalar.text, v.isFinite := by simp [Scalar.isFinite]
    exact ((finite.set rfl).set rfl).setOption property
  | groupCount => exact ((finite.set rfl).set rfl).set rfl
  | pageRank =>
    obtain ⟨alpha, totalIterations, vertexCount, built⟩ := accepted
    obtain ⟨damping, scale⟩ := PageRank.finite_of_validate (PageRank.validate_of_build built)
    have damping : (Scalar.float x.alpha).isFinite := damping
    have scale : (Scalar.float x.vertexCount).isFinite := scale
    exact (((finite.set rfl).set damping).set rfl).set scale
  | ranks => exact (finite.set rfl).set rfl

end Parameters

namespace Config

theorem decode_render :
    (∀ c : Config, (c.Finite → Json.decode (Json.render c) = some c) ∧
      (¬c.Finite → Json.decode (Json.render c) = (none : Option Config))) ∧
    ∀ (k : Keeper) (x : k.Carrier) (r : Config), k.Accepted x → r.Finite →
      Json.decode (Json.render (k.store x r)) = some (k.store x r) := by
  have back (c : Config) (finite : c.Finite) : Json.decode (Json.render c) = some c := by
    rw [decode_render_eq, if_pos (c.finite_iff.1 finite)]
  refine ⟨fun c => ⟨back c, fun infinite => ?_⟩, fun k x r accepted finite => ?_⟩
  · rw [decode_render_eq, if_neg fun all => infinite (c.finite_iff.2 all)]
  · exact back _ (k.finite_store accepted finite)

-- An integral float, the least integer, and a text that looks like a truth value.
def lookalikes : Config :=
  ((empty.set "a" (.float 1.0)).set "b" (.integer Int64.minValue)).set "c" (.text "true")

theorem decode_render_lookalikes :
    let p : PageRank := ⟨0.85, 3, 2.0⟩
    let broken := lookalikes.set "d" (.float (0.0 / 0.0))
    Json.decode (Json.render lookalikes) = some lookalikes ∧
      Json.decode (Json.render broken) = (none : Option Config) ∧
      Json.decode (Json.render (Keeper.pageRank.store p lookalikes)) =
        some (Keeper.pageRank.store p lookalikes) := by
  intro p broken
  have nothing : empty.Finite := by
    intro name x found
    cases found
  have finite : lookalikes.Finite := ((nothing.set rfl).set rfl).set rfl
  have infinite : ¬broken.Finite := by
    intro all
    have found : broken.get? "d" = some (.float (0.0 / 0.0)) := get?_set_self _ _ _
    exact absurd (all "d" _ found) (by decide)
  have accepted : Keeper.pageRank.Accepted p := ⟨some 0.85, some 3, some 2.0, rfl⟩
  exact ⟨(decode_render.1 lookalikes).1 finite, (decode_render.1 broken).2 infinite,
    decode_render.2 .pageRank p lookalikes accepted finite⟩

end Config

end BulkSync
