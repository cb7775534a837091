import HostMethods.Proofs.Class.Contents
import HostMethods.Proofs.Outcome

/-!
# Classes in tables

The lists of a class are searched from their beginning whenever a name is looked up. A host that
wants names to be found at once keeps a class in containers of another shape (`Class.Tables`). A
hash table finds what is known of a field by its name, the place of its value included. The names,
the types and the static values lie at their places in sequences of their own, and a second hash
table finds methods by their selectors.

Nothing holds these containers together but the order in which members are entered: a field first
takes its name in the table, with the present length of its sequences as its place, and is then
appended to each of them, so a member that is refused must be refused before. `Tables.Represents`
says what the containers of a class have in them. Adding a member to them goes as adding it to the
class does (`Represents.add`), and so does assembling (`Represents.assemble`). Whatever is looked
up, read or written is found, read and written alike. So what is proved of classes holds of the
containers, and they stay in step whatever is declared (`Tables.assemble_inStep`).
-/

namespace HostMethods

instance : Hashable Selector :=
  ⟨fun s ↦ hash s.text⟩

namespace Class

/-- A class in containers that have to be kept in step. -/
structure Tables where
  /-- The class's name. -/
  name : String
  /-- The methods, by selector. -/
  methods : Std.HashMap Selector Method
  /-- What is known of the fields, static or not, by name. -/
  fields : Std.HashMap String FieldInfo
  /-- The names of the static fields, in storage order. -/
  staticNames : List String
  /-- The types of the static fields, in storage order. -/
  staticTypes : List GuestType
  /-- The values of the static fields, in storage order. -/
  staticValues : List Value
  /-- The names of the fields of instances, in storage order. -/
  instanceNames : List String
  /-- The types of the fields of instances, in storage order. -/
  instanceTypes : List GuestType

namespace Tables

/-- The containers of a class without members. -/
def empty (name : String) : Tables :=
  ⟨name, ∅, ∅, [], [], [], [], []⟩

/-- Enters a field into the table of fields, if its name is not taken. -/
def insertField (t : Tables) (n : String) (info : FieldInfo) : Except Clash Tables :=
  if t.fields.contains n then .error (.field t.name n)
  else .ok { t with fields := t.fields.insert n info }

/-- Enters a method, if its selector is not taken. -/
def addMethod (t : Tables) (m : Method) : Except Clash Tables :=
  if t.methods.contains m.selector then .error (.method t.name m.selector)
  else .ok { t with methods := t.methods.insert m.selector m }

/-- Adds a member. The place of a field is where its name, its type and its value will lie when they
have been appended. -/
def add (t : Tables) : Member → Except Clash Tables
  | .static n access type initial =>
    (t.insertField n ⟨access.union .staticFlag, type, t.staticValues.length⟩).map fun t ↦
      { t with
        staticNames := t.staticNames ++ [n]
        staticTypes := t.staticTypes ++ [type]
        staticValues := t.staticValues ++ [initial] }
  | .field n access type =>
    (t.insertField n ⟨access, type, t.instanceNames.length⟩).map fun t ↦
      { t with
        instanceNames := t.instanceNames ++ [n]
        instanceTypes := t.instanceTypes ++ [type] }
  | .native n access signature entry => t.addMethod (.native t.name n access signature entry)
  | .method m => t.addMethod m

/-- Adds members one after the other and skips those that are refused. -/
def assemble (t : Tables) : List Member → Tables × List (Except Clash Unit)
  | [] => (t, [])
  | m :: ms =>
    match t.add m with
    | .ok t =>
      let (t, answers) := t.assemble ms
      (t, .ok () :: answers)
    | .error clash =>
      let (t, answers) := t.assemble ms
      (t, .error clash :: answers)

/-- Adds members one after the other and gives up at the first that is refused. -/
def build (t : Tables) : List Member → Except Clash Tables
  | [] => .ok t
  | m :: ms =>
    match t.add m with
    | .ok t => t.build ms
    | .error clash => .error clash

/-- The place of a name among the static values. -/
def staticIndex? (t : Tables) (n : String) : Option Nat :=
  ((t.fields[n]?).filter (·.access.isStatic)).map (·.index)

/-- The place of a name among the values of an instance. -/
def instanceIndex? (t : Tables) (n : String) : Option Nat :=
  ((t.fields[n]?).filter (!·.access.isStatic)).map (·.index)

/-- Reads a static field. -/
def readStatic (t : Tables) (n : String) : Option Value :=
  (t.staticIndex? n).bind (t.staticValues[·]?)

/-- Writes a static field. -/
def writeStatic (t : Tables) (n : String) (v : Value) : Except FieldFault Tables :=
  match t.staticIndex? n with
  | none => .error (.noStatic n t.name)
  | some i =>
    if i < t.staticValues.length then .ok { t with staticValues := t.staticValues.set i v }
    else .error (.staticBeyond i t.staticValues.length)

/-- The containers are those of the class, and have these values for its static fields. -/
structure Represents (t : Tables) (c : Class) (statics : List Value) : Prop where
  name_eq : t.name = c.name
  /-- A name leads to the same field, and to the same place. -/
  fields_eq : ∀ n, t.fields[n]? = c.field? n
  size_fields : t.fields.size = c.staticFields.length + c.instanceFields.length
  /-- A selector leads to the same method. -/
  methods_eq : ∀ s, t.methods[s]? = c.method? s
  size_methods : t.methods.size = c.methods.length
  staticNames_eq : t.staticNames = c.staticFields.map (·.name)
  staticTypes_eq : t.staticTypes = c.staticFields.map (·.type)
  staticValues_eq : t.staticValues = statics
  length_statics : statics.length = c.staticFields.length
  instanceNames_eq : t.instanceNames = c.instanceFields.map (·.name)
  instanceTypes_eq : t.instanceTypes = c.instanceFields.map (·.type)

end Tables

end Class

/-! ### Looking up in a longer list -/

/-- The last field of a list is found where no field before it has its name. -/
theorem Field.find?_concat (fields : List Field) (f : Field) (n : String) :
    find? (fields ++ [f]) n =
      (find? fields n).or
        (if f.name = n then some ⟨f.access, f.type, fields.length⟩ else none) := by
  rw [find?, find?, List.findIdx?_append]
  cases hfind : fields.findIdx? (·.name = n) with
  | some i =>
    obtain ⟨hi, -⟩ := List.findIdx?_eq_some_iff_getElem.1 hfind
    rw [Option.some_or, Option.bind_some, Option.bind_some, List.getElem?_append_left hi,
      List.getElem?_eq_getElem hi, Option.map_some, Option.some_or]
  | none =>
    rw [Option.none_or, Option.bind_none, Option.none_or, List.findIdx?_singleton]
    by_cases hname : f.name = n
    · simp [hname]
    · simp [hname]

namespace Class

variable {c : Class} {t : Tables} {statics : List Value} {n : String}

/-- A further static field is found under its name, if this is new. -/
theorem field?_concat_static {f : StaticField} (h : c.field? f.name = none) (n : String) :
    field? { c with staticFields := c.staticFields ++ [f] } n =
      if f.name = n then some ⟨f.access, f.type, c.staticFields.length⟩ else c.field? n := by
  obtain ⟨hstatic, -⟩ := Option.or_eq_none_iff.1 h
  rw [field?, List.map_append, List.map_singleton, Field.find?_concat, List.length_map, field?]
  by_cases hname : f.name = n
  · subst hname
    rw [hstatic, if_pos rfl, if_pos rfl, Option.none_or, Option.some_or]
  · rw [if_neg hname, if_neg hname, Option.or_none]

/-- A further field of instances is found under its name, if this is new. -/
theorem field?_concat_instance {f : Field} (h : c.field? f.name = none) (n : String) :
    field? { c with instanceFields := c.instanceFields ++ [f] } n =
      if f.name = n then some ⟨f.access, f.type, c.instanceFields.length⟩ else c.field? n := by
  obtain ⟨hstatic, hinstance⟩ := Option.or_eq_none_iff.1 h
  rw [field?, Field.find?_concat, field?]
  by_cases hname : f.name = n
  · subst hname
    rw [hstatic, hinstance, if_pos rfl, if_pos rfl, Option.none_or, Option.none_or]
  · rw [if_neg hname, if_neg hname, Option.or_none]

/-- A further method is found under its selector, if this is new. -/
theorem method?_concat {m : Method} (h : c.method? m.selector = none) (s : Selector) :
    method? { c with methods := c.methods ++ [m] } s =
      if m.selector = s then some m else c.method? s := by
  rw [method?, List.find?_append, List.find?_singleton, ← method?]
  by_cases hselector : m.selector = s
  · subst hselector
    simp [h]
  · simp [hselector]

namespace Tables

/-! ### Adding members -/

theorem represents_empty (name : String) :
    (empty name).Represents (Class.empty name) (Class.empty name).initialStatics where
  name_eq := rfl
  fields_eq _ := Std.HashMap.getElem?_empty
  size_fields := Std.HashMap.size_empty
  methods_eq _ := Std.HashMap.getElem?_empty
  size_methods := Std.HashMap.size_empty
  staticNames_eq := rfl
  staticTypes_eq := rfl
  staticValues_eq := rfl
  length_statics := rfl
  instanceNames_eq := rfl
  instanceTypes_eq := rfl

namespace Represents

theorem contains_fields (h : t.Represents c statics) (n : String) :
    t.fields.contains n = c.hasField n := by
  rw [Std.HashMap.contains_eq_isSome_getElem?, h.fields_eq, hasField]

theorem contains_methods (h : t.Represents c statics) (s : Selector) :
    t.methods.contains s = (c.method? s).isSome := by
  rw [Std.HashMap.contains_eq_isSome_getElem?, h.methods_eq]

theorem not_mem_fields (h : t.Represents c statics) (hfree : c.field? n = none) : n ∉ t.fields := by
  rw [Std.HashMap.mem_iff_isSome_getElem?, h.fields_eq, hfree]
  exact Bool.false_ne_true

/-- The containers with a static field more. -/
theorem concat_static (h : t.Represents c statics) {f : StaticField}
    (hfree : c.field? f.name = none) :
    Represents
      { t with
        fields := t.fields.insert f.name ⟨f.access, f.type, t.staticValues.length⟩
        staticNames := t.staticNames ++ [f.name]
        staticTypes := t.staticTypes ++ [f.type]
        staticValues := t.staticValues ++ [f.initial] }
      { c with staticFields := c.staticFields ++ [f] } (statics ++ [f.initial]) :=
  { h with
    fields_eq := fun n ↦ by
      rw [field?_concat_static hfree, Std.HashMap.getElem?_insert, h.fields_eq, h.staticValues_eq,
        h.length_statics]
      simp only [beq_iff_eq]
    size_fields := by
      rw [Std.HashMap.size_insert, if_neg (h.not_mem_fields hfree), h.size_fields,
        List.length_append, List.length_singleton]
      exact Nat.add_right_comm _ _ _
    staticNames_eq := by rw [h.staticNames_eq, List.map_append, List.map_singleton]
    staticTypes_eq := by rw [h.staticTypes_eq, List.map_append, List.map_singleton]
    staticValues_eq := by rw [h.staticValues_eq]
    length_statics := by
      rw [List.length_append, List.length_append, h.length_statics]
      rfl }

/-- The containers with a field of instances more. -/
theorem concat_instance (h : t.Represents c statics) {f : Field} (hfree : c.field? f.name = none) :
    Represents
      { t with
        fields := t.fields.insert f.name ⟨f.access, f.type, t.instanceNames.length⟩
        instanceNames := t.instanceNames ++ [f.name]
        instanceTypes := t.instanceTypes ++ [f.type] }
      { c with instanceFields := c.instanceFields ++ [f] } statics :=
  { h with
    fields_eq := fun n ↦ by
      rw [field?_concat_instance hfree, Std.HashMap.getElem?_insert, h.fields_eq,
        h.instanceNames_eq, List.length_map]
      simp only [beq_iff_eq]
    size_fields := by
      rw [Std.HashMap.size_insert, if_neg (h.not_mem_fields hfree), h.size_fields,
        List.length_append, List.length_singleton]
      rfl
    instanceNames_eq := by rw [h.instanceNames_eq, List.map_append, List.map_singleton]
    instanceTypes_eq := by rw [h.instanceTypes_eq, List.map_append, List.map_singleton] }

/-- The containers with a method more. -/
theorem concat_method (h : t.Represents c statics) {m : Method}
    (hfree : c.method? m.selector = none) :
    Represents { t with methods := t.methods.insert m.selector m }
      { c with methods := c.methods ++ [m] } statics :=
  { h with
    methods_eq := fun s ↦ by
      rw [method?_concat hfree, Std.HashMap.getElem?_insert, h.methods_eq]
      simp only [beq_iff_eq]
    size_methods := by
      have hnew : m.selector ∉ t.methods := by
        rw [Std.HashMap.mem_iff_isSome_getElem?, h.methods_eq, hfree]
        exact Bool.false_ne_true
      rw [Std.HashMap.size_insert, if_neg hnew, h.size_methods, List.length_append,
        List.length_singleton] }

/-- A method is added to the containers as it is added to the class. -/
theorem addMethod (h : t.Represents c c.initialStatics) (m : Method) :
    Except.Related (fun t' c' ↦ t'.Represents c' c'.initialStatics) (t.addMethod m)
      (c.addMethod m) := by
  rw [Tables.addMethod, Class.addMethod, h.contains_methods]
  split
  · rw [h.name_eq]
    exact .error _
  next hnew => exact .ok (h.concat_method (Option.not_isSome_iff_eq_none.1 hnew))

/-- **A member is added to the containers as it is added to the class**: it is refused by both, for
the same reason, or enters both. -/
theorem add (h : t.Represents c c.initialStatics) (m : Member) :
    Except.Related (fun t' c' ↦ t'.Represents c' c'.initialStatics) (t.add m) (c.add m) := by
  cases m with
  | static n access type initial =>
    rw [Tables.add, insertField, Class.add, h.contains_fields]
    split
    · rw [h.name_eq]
      exact .error _
    next hnew =>
      have hnext := h.concat_static (f := ⟨⟨n, access.union .staticFlag, type⟩, initial⟩)
        (Option.not_isSome_iff_eq_none.1 hnew)
      rw [initialStatics, ← List.map_singleton (f := StaticField.initial), ← List.map_append]
        at hnext
      exact .ok hnext
  | field n access type =>
    rw [Tables.add, insertField, Class.add, h.contains_fields]
    split
    · rw [h.name_eq]
      exact .error _
    next hnew =>
      exact .ok (h.concat_instance (f := ⟨n, access, type⟩) (Option.not_isSome_iff_eq_none.1 hnew))
  | native n access signature entry =>
    rw [Tables.add, Class.add, h.name_eq]
    exact h.addMethod _
  | method m => exact h.addMethod m

/-- **A class is assembled in the containers as it is assembled in lists**, with the same answers to
its members. -/
theorem assemble (h : t.Represents c c.initialStatics) (ms : List Member) :
    (t.assemble ms).1.Represents (c.assemble ms).1 (c.assemble ms).1.initialStatics ∧
      (t.assemble ms).2 = (c.assemble ms).2 := by
  induction ms generalizing t c with
  | nil => exact ⟨h, rfl⟩
  | cons m ms ih =>
    have hadd := h.add m
    rw [Tables.assemble, Class.assemble]
    generalize t.add m = added, c.add m = added' at hadd ⊢
    cases hadd with
    | error clash => exact ⟨(ih h).1, congrArg (.error clash :: ·) (ih h).2⟩
    | ok hnext => exact ⟨(ih hnext).1, congrArg (.ok () :: ·) (ih hnext).2⟩

/-- A class that is given up is given up in the containers, too. -/
theorem build (h : t.Represents c c.initialStatics) (ms : List Member) :
    Except.Related (fun t' c' ↦ t'.Represents c' c'.initialStatics) (t.build ms) (c.build ms) := by
  induction ms generalizing t c with
  | nil => exact .ok h
  | cons m ms ih =>
    have hadd := h.add m
    rw [Tables.build, Class.build]
    generalize t.add m = added, c.add m = added' at hadd ⊢
    cases hadd with
    | error clash => exact .error clash
    | ok hnext => exact ih hnext

/-! ### Reading and writing -/

theorem staticIndex?_eq (h : t.Represents c statics) (n : String) :
    t.staticIndex? n = c.staticIndex? n := by
  rw [Tables.staticIndex?, h.fields_eq, Class.staticIndex?]

/-- A name leads to the same value of an instance. -/
theorem instanceIndex?_eq (h : t.Represents c statics) (n : String) :
    t.instanceIndex? n = c.instanceIndex? n := by
  rw [Tables.instanceIndex?, h.fields_eq, Class.instanceIndex?]

/-- A new instance has the same values. -/
theorem initialFields_eq (h : t.Represents c statics) :
    t.instanceTypes.map GuestType.initialValue = c.initialFields := by
  rw [h.instanceTypes_eq, List.map_map]
  rfl

/-- A static field reads as it does by the lists. -/
theorem readStatic_eq (h : t.Represents c statics) (n : String) :
    t.readStatic n = c.readStatic statics n := by
  rw [Tables.readStatic, h.staticIndex?_eq, h.staticValues_eq, Class.readStatic]

/-- **A write to a static field goes as it does by the lists**: it is refused for the same reason,
or leaves containers of the same class with the new values. -/
theorem writeStatic (h : t.Represents c statics) (n : String) (v : Value) :
    Except.Related (fun t' statics' ↦ t'.Represents c statics') (t.writeStatic n v)
      (c.writeStatic statics n v) := by
  rw [Tables.writeStatic, Class.writeStatic, h.staticIndex?_eq, h.staticValues_eq]
  cases c.staticIndex? n with
  | none =>
    rw [h.name_eq]
    exact .error _
  | some i =>
    dsimp only
    split
    · exact .ok { h with
        staticValues_eq := rfl
        length_statics := List.length_set.trans h.length_statics }
    · exact .error _

end Represents

/-! ### Containers in step -/

/-- What one container has of a field, the others have at its place. -/
structure InStep (t : Tables) : Prop where
  length_staticTypes : t.staticTypes.length = t.staticNames.length
  length_staticValues : t.staticValues.length = t.staticNames.length
  length_instanceTypes : t.instanceTypes.length = t.instanceNames.length
  /-- No name lies in the sequences twice. -/
  nodup_names : (t.staticNames ++ t.instanceNames).Nodup
  /-- A name that is found lies in one of the sequences. -/
  mem_of_mem_fields : ∀ n ∈ t.fields, n ∈ t.staticNames ∨ n ∈ t.instanceNames
  /-- The name of a static field is found, with the place where it lies, the static flag, and the
  type that lies there. -/
  exists_static : ∀ (i : Nat) (n : String), t.staticNames[i]? = some n →
    ∃ access type, t.fields[n]? = some ⟨access, type, i⟩ ∧ access.isStatic = true ∧
      t.staticTypes[i]? = some type
  /-- The name of a field of instances is found with the place where it lies and the type that lies
  there. -/
  exists_instance : ∀ (i : Nat) (n : String), t.instanceNames[i]? = some n →
    ∃ access type, t.fields[n]? = some ⟨access, type, i⟩ ∧ t.instanceTypes[i]? = some type
  /-- A method is found under its own selector. -/
  selector_eq : ∀ (s : Selector) (m : Method), t.methods[s]? = some m → m.selector = s

section InStep

variable {name : String} {ms : List Member}

theorem inStep_of_represents (hnodup : (ms.map Member.key).Nodup)
    (h : t.Represents (ofMembers name ms) statics) : t.InStep where
  length_staticTypes := by
    rw [h.staticTypes_eq, h.staticNames_eq, List.length_map, List.length_map]
  length_staticValues := by
    rw [h.staticValues_eq, h.length_statics, h.staticNames_eq, List.length_map]
  length_instanceTypes := by
    rw [h.instanceTypes_eq, h.instanceNames_eq, List.length_map, List.length_map]
  nodup_names := by
    have hstatic : ((ofMembers name ms).staticFields.map (·.name)).Nodup := by
      have hnames := @nodup_staticNames name ms hnodup
      rwa [List.map_map] at hnames
    rw [h.staticNames_eq, h.instanceNames_eq]
    refine List.Nodup.append hstatic (nodup_instanceNames hnodup) fun n hn hn' ↦ ?_
    -- two members would have taken the name
    obtain ⟨_, hf, rfl⟩ := List.mem_map.1 hn
    obtain ⟨_, hf', heq⟩ := List.mem_map.1 hn'
    obtain ⟨m, hm, hdeclared⟩ := List.mem_filterMap.1 hf
    have hsame := Member.mem_of_mem_filterMap Member.key_of_instanceField? hnodup hm hf'
      ((Member.key_of_staticField? hdeclared).trans (congrArg MemberKey.field heq.symm))
    cases m <;> cases hdeclared
    cases hsame
  mem_of_mem_fields n hn := by
    obtain ⟨info, hinfo⟩ := Option.isSome_iff_exists.1 (Std.HashMap.mem_iff_isSome_getElem?.1 hn)
    rw [h.fields_eq] at hinfo
    rw [h.staticNames_eq, h.instanceNames_eq]
    rcases declared_of_field? hinfo with ⟨_, _, _, -, -, -, hplace⟩ | ⟨_, _, -, -, -, hplace⟩
    · exact .inl (List.mem_of_getElem? hplace)
    · exact .inr (List.mem_of_getElem? hplace)
  exists_static i n hi := by
    rw [h.staticNames_eq] at hi
    obtain ⟨f, hf, rfl⟩ := Option.map_eq_some_iff.1 ((List.getElem?_map ..).symm.trans hi)
    obtain ⟨m, hm, hdeclared⟩ := List.mem_filterMap.1 (List.mem_of_getElem? hf)
    cases m <;> cases hdeclared
    refine ⟨_, _, (h.fields_eq _).trans (field?_of_static hnodup hm hi),
      Access.contains_union_right _ _, ?_⟩
    rw [h.staticTypes_eq, List.getElem?_map, hf, Option.map_some]
  exists_instance i n hi := by
    rw [h.instanceNames_eq] at hi
    obtain ⟨f, hf, rfl⟩ := Option.map_eq_some_iff.1 ((List.getElem?_map ..).symm.trans hi)
    obtain ⟨m, hm, hdeclared⟩ := List.mem_filterMap.1 (List.mem_of_getElem? hf)
    cases m <;> cases hdeclared
    refine ⟨_, _, (h.fields_eq _).trans (field?_of_field hnodup hm hi), ?_⟩
    rw [h.instanceTypes_eq, List.getElem?_map, hf, Option.map_some]
  selector_eq s m hm := by
    rw [h.methods_eq, method?, List.find?_eq_some_iff_append] at hm
    exact of_decide_eq_true hm.1

/-- **The containers of a class are in step**, whatever members are declared and refused, and hold
what the lists of the class do. -/
theorem assemble_inStep (name : String) (ms : List Member) :
    ((empty name).assemble ms).1.InStep ∧
      ((empty name).assemble ms).1.Represents ((Class.empty name).assemble ms).1
        ((Class.empty name).assemble ms).1.initialStatics := by
  have hrepresents := ((represents_empty name).assemble ms).1
  refine ⟨?_, hrepresents⟩
  rw [assemble_eq_ofMembers] at hrepresents
  exact inStep_of_represents (nodup_keys_accepted name ms) hrepresents

end InStep

end Tables

end Class

end HostMethods
