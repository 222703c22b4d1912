import KeyedModel.Proofs.Instance.Holding

/-!
# Models as identities with entries

To its users a model is an optional identity and a map from its keys to texts. The map is the
reference here: the generated code answers every run of operations as the map does, and stays in
agreement with it.
-/

namespace KeyedModel

variable {fields : List Field} {s : Grammar.StructItem} {name : String}

/-- An operation that may change a model. -/
inductive Action where
  | setIdentity (id : Option Uuid)
  | setValue (key text : String)
  /-- A change of a text through an exclusive reference to it. -/
  | modify (key : String) (change : String → String)

/-- What an operation answers. -/
inductive Answer where
  | done
  | unknown (error : UnknownKey)
  /-- There is no text to refer to. -/
  | absent
  deriving DecidableEq, Repr

/-- How an instance comes about. -/
inductive Start where
  | new
  | withFields (id : Option Uuid) (texts : List String)

/-- A constructor with parameters takes one text for each field. -/
def Start.Fits (fields : List Field) : Start → Prop
  | .new => True
  | .withFields _ texts => texts.length = fields.length

/-- The reference: an identity and a partial map from keys to texts. -/
structure Reference where
  identity : Option Uuid
  entry : String → Option String

namespace Reference

/-- Changes the entry of a key. -/
def write (r : Reference) (key : String) (change : String → String) : Reference :=
  { r with entry := fun k => if k = key then (r.entry k).map change else r.entry k }

/-- The reference at the start: every key of the fields has an entry, empty or as given. -/
def start (fields : List Field) : Start → Reference
  | .new => ⟨none, fun k => if k ∈ fields.map Field.key then some "" else none⟩
  | .withFields id texts => ⟨id, fun k => ((fields.map Field.key).zip texts).lookup k⟩

/-- One operation on the reference. Keys without an entry are refused. -/
def step (schema : String) (r : Reference) : Action → Reference × Answer
  | .setIdentity id => ({ r with identity := id }, .done)
  | .setValue key text =>
    if (r.entry key).isSome then (r.write key fun _ => text, .done)
    else (r, .unknown ⟨schema, key⟩)
  | .modify key change =>
    if (r.entry key).isSome then (r.write key change, .done) else (r, .absent)

/-- Some operations in order: the last state and all answers. -/
def run (schema : String) (r : Reference) : List Action → Reference × List Answer
  | [] => (r, [])
  | action :: rest =>
    let first := r.step schema action
    let more := first.1.run schema rest
    (more.1, first.2 :: more.2)

end Reference

namespace Generated

/-- The instance at the start. -/
def start (g : Generated) : Start → Instance
  | .new => g.new
  | .withFields id texts => g.withFields id texts

/-- One operation on an instance. -/
def step (g : Generated) (x : Instance) : Action → Instance × Answer
  | .setIdentity id => (x.setIdentity id, .done)
  | .setValue key text =>
    match g.setValue x key text with
    | .ok y => (y, .done)
    | .error e => (x, .unknown e)
  | .modify key change =>
    match g.modify? x key change with
    | some y => (y, .done)
    | none => (x, .absent)

/-- Some operations in order: the last instance and all answers. -/
def run (g : Generated) (x : Instance) : List Action → Instance × List Answer
  | [] => (x, [])
  | action :: rest =>
    let first := g.step x action
    let more := g.run first.1 rest
    (more.1, first.2 :: more.2)

end Generated

/-- What an instance holds according to a reference with an entry for every key of the fields. -/
structure Reference.Matches (fields : List Field) (x : Instance) (r : Reference) : Prop where
  holding : x = .holding fields r.identity fun key => (r.entry key).getD ""
  domain : ∀ key, (r.entry key).isSome = true ↔ key ∈ fields.map Field.key

namespace Reference.Matches

variable {x : Instance} {r : Reference}

/-- Below a key without a field there is no entry. -/
theorem entry_eq_none (h : r.Matches fields x) {key : String}
    (hunder : Field.under? fields key = none) : r.entry key = none := by
  have hkey : key ∉ fields.map Field.key := by
    rw [← Field.isSome_under?, hunder]
    simp
  have hnone : (r.entry key).isSome ≠ true := fun hsome => hkey ((h.domain key).mp hsome)
  simpa using hnone

/-- Below the key of a field there is the text of that field. -/
theorem entry_eq_some (h : r.Matches fields x) (hfields : Field.Distinct fields) {key : String}
    {field : Field} (hunder : Field.under? fields key = some field) :
    r.entry key = some (x.values.text field.ident) := by
  obtain ⟨hmem, rfl⟩ := Field.under?_eq_some hunder
  have hsome := (h.domain field.key).mpr (List.mem_map_of_mem hmem)
  obtain ⟨text, htext⟩ := Option.isSome_iff_exists.mp hsome
  rw [h.holding, Instance.text_holding hfields hmem, htext, Option.getD_some]

/-- A change under the key of a field is a change of its entry. -/
theorem modify (h : r.Matches fields x) (hfields : Field.Distinct fields) {key : String}
    {field : Field} (hunder : Field.under? fields key = some field) (change : String → String) :
    ∃ y, (Generated.of s (.ofFields name fields)).modify? x key change = some y ∧
      (r.write key change).Matches fields y := by
  have hmodify : (Generated.of s (.ofFields name fields)).modify? x key change =
      some (x.replace field.ident (.text (change (x.values.text field.ident)))) := by
    rw [Generated.modify?, Generated.identOf?_of, hunder]
    rfl
  have hentry := h.entry_eq_some hfields hunder
  obtain ⟨hmem, rfl⟩ := Field.under?_eq_some hunder
  refine ⟨_, hmodify, ?_, fun k => ?_⟩
  · have hwrite : (fun k => ((r.write field.key change).entry k).getD "") =
        changed (fun k => (r.entry k).getD "") field.key (change (x.values.text field.ident)) := by
      funext k
      by_cases hk : k = field.key
      · simp [changed, write, hk, hentry]
      · simp [changed, write, hk]
    have hreplace := @Instance.replace_holding fields field r.identity
      (fun k => (r.entry k).getD "") hfields hmem (change (x.values.text field.ident))
    rw [← h.holding] at hreplace
    rw [hreplace, hwrite]
    rfl
  · rw [← h.domain k]
    by_cases hk : k = field.key <;> simp [write, hk]

/-- Under a key without a field nothing is changed. -/
theorem modify?_eq_none {key : String} (hunder : Field.under? fields key = none)
    (change : String → String) :
    (Generated.of s (.ofFields name fields)).modify? x key change = none := by
  rw [Generated.modify?, Generated.identOf?_of, hunder]
  rfl

/-- Every operation has the same answer and keeps what the instance holds in agreement. -/
theorem step (h : r.Matches fields x) (hfields : Field.Distinct fields) (action : Action) :
    ((Generated.of s (.ofFields name fields)).step x action).2 = (r.step name action).2 ∧
      (r.step name action).1.Matches fields
        ((Generated.of s (.ofFields name fields)).step x action).1 := by
  cases action with
  | setIdentity id =>
    refine ⟨rfl, ?_, h.domain⟩
    change x.setIdentity id = _
    rw [h.holding, Instance.setIdentity_holding hfields]
    rfl
  | setValue key text =>
    cases hunder : Field.under? fields key with
    | none =>
      have hentry := h.entry_eq_none hunder
      have hmodify := @modify?_eq_none fields s name x key hunder fun _ => text
      simpa [Generated.step, Generated.setValue, hmodify, Reference.step, hentry] using h
    | some field =>
      have hentry := h.entry_eq_some hfields hunder
      obtain ⟨y, hmodify, hy⟩ := @modify fields s name x r h hfields key field hunder fun _ => text
      simpa [Generated.step, Generated.setValue, hmodify, Reference.step, hentry] using hy
  | modify key change =>
    cases hunder : Field.under? fields key with
    | none =>
      have hentry := h.entry_eq_none hunder
      have hmodify := @modify?_eq_none fields s name x key hunder change
      simpa [Generated.step, hmodify, Reference.step, hentry] using h
    | some field =>
      have hentry := h.entry_eq_some hfields hunder
      obtain ⟨y, hmodify, hy⟩ := @modify fields s name x r h hfields key field hunder change
      simpa [Generated.step, hmodify, Reference.step, hentry] using hy

/-- Every run has the same answers and ends in agreement. -/
theorem run (h : r.Matches fields x) (hfields : Field.Distinct fields) (actions : List Action) :
    ((Generated.of s (.ofFields name fields)).run x actions).2 = (r.run name actions).2 ∧
      (r.run name actions).1.Matches fields
        ((Generated.of s (.ofFields name fields)).run x actions).1 := by
  induction actions generalizing x r with
  | nil => exact ⟨rfl, h⟩
  | cons action rest ih =>
    obtain ⟨hanswer, hnext⟩ := @step fields s name x r h hfields action
    obtain ⟨hanswers, hlast⟩ := ih hnext
    simp only [Generated.run, Reference.run]
    exact ⟨by rw [hanswer, hanswers], hlast⟩

/-- Keys have values in a list of as many values. -/
theorem isSome_lookup_zip {keys values : List String} {key : String}
    (h : keys.length = values.length) :
    ((keys.zip values).lookup key).isSome = true ↔ key ∈ keys := by
  induction keys generalizing values with
  | nil => simp
  | cons k rest ih =>
    cases values with
    | nil => cases h
    | cons v more =>
      rw [List.zip_cons_cons, List.lookup_cons, List.mem_cons]
      by_cases hk : key = k
      · simp [hk]
      · rw [beq_eq_false_iff_ne.mpr hk]
        simp [hk, ih (Nat.succ.inj h)]

/-- The constructors make what the reference starts with. -/
theorem start (hfields : Field.Distinct fields) {first : Start} (hfirst : first.Fits fields) :
    (Reference.start fields first).Matches fields
      ((Generated.of s (.ofFields name fields)).start first) := by
  cases first with
  | new =>
    refine ⟨?_, fun key => ?_⟩
    · have hempty : (fun key => ((Reference.start fields .new).entry key).getD "") =
          fun _ : String => "" := by
        funext key
        simp only [Reference.start]
        split <;> rfl
      rw [hempty]
      exact Generated.new_of
    · simp only [Reference.start]
      split <;> simp [*]
  | withFields id texts =>
    refine ⟨Generated.withFields_of hfields hfirst, fun key => ?_⟩
    exact isSome_lookup_zip (by simpa using hfirst.symm)

end Reference.Matches

end KeyedModel
