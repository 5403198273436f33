import ClassAtlas.Settings.Layers
import ClassAtlas.Proofs.FileTrees
import ClassAtlas.Proofs.PathNames
import Mathlib.Data.List.Nodup

/-! # Settings in layers

A layer hides what is below it path by path: a leaf that it gives itself is seen, and a leaf below shows
through where the layer has nothing at the path and no leaf above it. A layer laid over once more
changes nothing. The environment is a layer of single leaves, one for each of its variables that is
set, so these are seen in the settings and everything else is as the file has it. -/

namespace ClassAtlas.Value

variable {fields : List (String × Value)} {key other : String} {path : List String} {v w : Value}

/-- A value that is no object. -/
def isLeaf : Value → Bool
  | object _ => false
  | _ => true

/-- What stands at a path of keys. -/
def at? : Value → List String → Option Value
  | v, [] => some v
  | v, key :: path => (v.get? key).bind (·.at? path)

/-- A value inside objects of one field each. -/
def nest : List String → Value → Value
  | [], v => v
  | key :: path, v => .object [(key, nest path v)]

/-- Every object has each of its keys once. -/
inductive Keyed : Value → Prop where
  | leaf {v : Value} (h : v.isLeaf = true) : Keyed v
  | object {fields : List (String × Value)} (distinct : (fields.map (·.1)).Nodup)
      (inner : ∀ field ∈ fields, Keyed field.2) : Keyed (.object fields)

theorem at?_append (v : Value) (path rest : List String) :
    v.at? (path ++ rest) = (v.at? path).bind (·.at? rest) := by
  induction path generalizing v with
  | nil => rfl
  | cons key path ih =>
    rw [List.cons_append, at?, at?, Option.bind_assoc]
    exact Option.bind_congr fun w _ => ih w

theorem get?_leaf (h : v.isLeaf = true) (key : String) : v.get? key = none := by
  cases v with
  | object fields => cases h
  | _ => rfl

theorem eq_nil_of_at?_leaf (h : v.isLeaf = true) (hw : v.at? path = some w) : path = [] ∧ v = w := by
  cases path with
  | nil => exact ⟨rfl, Option.some.inj hw⟩
  | cons key path =>
    rw [at?, get?_leaf h] at hw
    cases hw

theorem at?_nest_self (path : List String) (v : Value) : (nest path v).at? path = some v := by
  induction path with
  | nil => rfl
  | cons key path ih => simpa [nest, at?, get?] using ih

theorem at?_nest {place : List String} (h : v.isLeaf = true) (hw : (nest place v).at? path = some w) :
    ∃ rest, place = path ++ rest ∧ w.at? rest = some v := by
  induction place generalizing path with
  | nil =>
    obtain ⟨rfl, rfl⟩ := eq_nil_of_at?_leaf h hw
    exact ⟨[], rfl, rfl⟩
  | cons name place ih =>
    cases path with
    | nil =>
      cases hw
      exact ⟨name :: place, rfl, at?_nest_self (name :: place) v⟩
    | cons key path =>
      obtain ⟨u, hu, hw⟩ := Option.bind_eq_some_iff.mp hw
      obtain ⟨rfl, rfl⟩ : key = name ∧ u = nest place v := by
        simpa using (lookup_iff_mem (by simp)).mp hu
      obtain ⟨rest, rfl, hrest⟩ := ih hw
      exact ⟨rest, rfl, hrest⟩

theorem keyed_nest (h : v.isLeaf = true) (path : List String) : Keyed (nest path v) := by
  induction path with
  | nil => exact .leaf h
  | cons key path ih => exact .object (by simp) (by simpa using ih)

theorem lookup_setField :
    (setField key v fields).lookup other = if other = key then some v else fields.lookup other := by
  induction fields with
  | nil =>
    rw [setField, List.lookup_cons]
    by_cases hother : other = key
    · simp [hother]
    · simp [hother, beq_eq_false_iff_ne.mpr hother]
  | cons field fields ih =>
    obtain ⟨k, old⟩ := field
    rw [setField]
    by_cases hk : k = key
    · subst hk
      rw [if_pos (beq_self_eq_true k), List.lookup_cons, List.lookup_cons]
      by_cases hother : other = k
      · simp [hother]
      · rw [if_neg hother, beq_eq_false_iff_ne.mpr hother]
    · rw [if_neg (by simpa using hk), List.lookup_cons, List.lookup_cons, ih]
      by_cases hother : other = k
      · subst hother
        simp [hk]
      · rw [beq_eq_false_iff_ne.mpr hother]

theorem setField_self (h : fields.lookup key = some v) : setField key v fields = fields := by
  induction fields with
  | nil => cases h
  | cons field fields ih =>
    obtain ⟨k, old⟩ := field
    rw [setField]
    by_cases hk : k = key
    · subst hk
      rw [List.lookup_cons, beq_self_eq_true] at h
      cases h
      rw [if_pos (beq_self_eq_true k)]
    · rw [List.lookup_cons, beq_eq_false_iff_ne.mpr (Ne.symm hk)] at h
      rw [if_neg (by simpa using hk), ih h]

end ClassAtlas.Value

namespace ClassAtlas.Settings

open Value (Keyed)

variable {base overrides : List (String × Value)} {base? : Option Value} {key : String}
  {path : List String} {v w : Value}

/-! ## One layer over another -/

theorem overlayValue_leaf (h : v.isLeaf = true) : overlayValue base? v = v := by
  cases v with
  | object fields => cases h
  | _ => simp only [overlayValue]

theorem overlayValue_none (v : Value) : overlayValue none v = v := by
  cases v <;> simp only [overlayValue]

theorem exists_overlayValue_object (base? : Option Value) (overrides : List (String × Value)) :
    ∃ fields, overlayValue base? (.object overrides) = .object fields := by
  unfold overlayValue
  split
  · exact ⟨_, rfl⟩
  · exact ⟨_, rfl⟩

theorem lookup_overlay (hdistinct : (overrides.map (·.1)).Nodup) :
    (overlay base overrides).lookup key =
      match overrides.lookup key with
      | some v => some (overlayValue (base.lookup key) v)
      | none => base.lookup key := by
  induction overrides generalizing base with
  | nil => simp only [overlay, List.lookup_nil]
  | cons field overrides ih =>
    obtain ⟨k, v⟩ := field
    obtain ⟨hfresh, hdistinct⟩ := List.nodup_cons.mp hdistinct
    rw [overlay, ih hdistinct, List.lookup_cons, Value.lookup_setField]
    by_cases hk : key = k
    · have hnone : overrides.lookup key = none := List.lookup_eq_none_iff.mpr fun field hfield =>
        bne_iff_ne.mpr fun heq => hfresh (List.mem_map.mpr ⟨field, hfield, heq.symm.trans hk⟩)
      rw [hnone, hk, beq_self_eq_true, if_pos rfl]
    · rw [beq_eq_false_iff_ne.mpr hk, if_neg hk]

theorem get?_overlayValue (hdistinct : (overrides.map (·.1)).Nodup) :
    (overlayValue base? (.object overrides)).get? key =
      match overrides.lookup key with
      | some v => some (overlayValue (base?.bind (·.get? key)) v)
      | none => base?.bind (·.get? key) := by
  -- a layer under which there is no object counts as one over an empty object
  have hbare (hnone : base?.bind (·.get? key) = none)
      (heq : overlayValue base? (.object overrides) = .object overrides) :
      (overlayValue base? (.object overrides)).get? key =
        match overrides.lookup key with
        | some v => some (overlayValue (base?.bind (·.get? key)) v)
        | none => base?.bind (·.get? key) := by
    rw [heq, hnone]
    cases hv : overrides.lookup key with
    | none => exact hv
    | some v => exact hv.trans (congrArg some (overlayValue_none v).symm)
  match base? with
  | none => exact hbare rfl (overlayValue_none _)
  | some (.object base) =>
    rw [show overlayValue (some (.object base)) (.object overrides) = .object (overlay base overrides)
      by simp only [overlayValue]]
    exact lookup_overlay hdistinct
  | some .null | some (.bool _) | some (.int _) | some (.float _) | some (.str _) | some (.list _) =>
    exact hbare rfl (by simp only [overlayValue])

/-- A layer with nothing at a path, and with no leaf above it. -/
structure ShowsThrough (layer : Value) (path : List String) : Prop where
  nothing : layer.at? path = none
  noLeaf : ∀ place, place <+: path → place ≠ path → ∀ v, layer.at? place = some v → v.isLeaf = false

theorem not_showsThrough_leaf (h : v.isLeaf = true) : ¬ ShowsThrough v path := by
  intro hshows
  cases path with
  | nil => cases hshows.nothing
  | cons key path =>
    have hopen := hshows.noLeaf [] List.nil_prefix (List.cons_ne_nil _ _).symm v rfl
    rw [h] at hopen
    cases hopen

theorem showsThrough_cons : ShowsThrough (.object overrides) (key :: path) ↔
    ∀ v, overrides.lookup key = some v → ShowsThrough v path := by
  have hat (rest : List String) : (Value.object overrides).at? (key :: rest) =
      (overrides.lookup key).bind (·.at? rest) := rfl
  constructor
  · intro h v hv
    refine ⟨by simpa [hat, hv] using h.nothing, fun place hplace hne w hw => ?_⟩
    refine h.noLeaf (key :: place) (List.cons_prefix_cons.mpr ⟨rfl, hplace⟩) (by simpa using hne) w ?_
    rw [hat, hv, Option.bind_some, hw]
  · intro h
    refine ⟨?_, fun place hplace hne w hw => ?_⟩
    · rw [hat]
      cases hv : overrides.lookup key with
      | none => rfl
      | some v => exact (h v hv).nothing
    · cases place with
      | nil =>
        cases hw
        rfl
      | cons k place =>
        obtain ⟨rfl, hbelow⟩ := List.cons_prefix_cons.mp hplace
        obtain ⟨v, hv, hw⟩ := Option.bind_eq_some_iff.mp hw
        exact (h v hv).noLeaf place hbelow (by simpa using hne) w hw

/-- A leaf is seen at a path exactly if the upper layer has it there, or if the lower one has it there
and the upper one lets it show through. -/
theorem at?_overlayValue (base? : Option Value) (path : List String) (hv : Keyed v) (hw : w.isLeaf = true) :
    (overlayValue base? v).at? path = some w ↔
      v.at? path = some w ∨ base?.bind (·.at? path) = some w ∧ ShowsThrough v path := by
  induction path generalizing base? v with
  | nil =>
    have hnot : ¬ ShowsThrough v [] := fun h => by cases h.nothing
    simp only [Value.at?, Option.some.injEq, hnot, and_false, or_false]
    cases hv with
    | leaf hleaf => rw [overlayValue_leaf hleaf]
    | object =>
      -- an object stays an object, and so does not become the leaf
      obtain ⟨fields, hfields⟩ := exists_overlayValue_object base? _
      rw [hfields]
      refine iff_of_false ?_ ?_ <;> (rintro rfl; cases hw)
  | cons key path ih =>
    cases hv with
    | leaf hleaf =>
      have hnone : v.at? (key :: path) = none := by rw [Value.at?, Value.get?_leaf hleaf, Option.bind_none]
      rw [overlayValue_leaf hleaf]
      simp only [hnone, not_showsThrough_leaf hleaf, and_false, or_false]
    | @object overrides hdistinct hinner =>
      have hbelow : base?.bind (·.at? (key :: path)) = (base?.bind (·.get? key)).bind (·.at? path) := by
        rw [Option.bind_assoc]
        rfl
      rw [showsThrough_cons, hbelow]
      change ((overlayValue base? (.object overrides)).get? key).bind (·.at? path) = some w ↔
        (overrides.lookup key).bind (·.at? path) = some w ∨ _
      rw [get?_overlayValue hdistinct]
      cases hv : overrides.lookup key with
      | none => simp
      | some v =>
        have hkeyed : Keyed v := hinner _ ((lookup_iff_mem hdistinct).mp hv)
        simpa using ih (base?.bind (·.get? key)) hkeyed

/-! ## The same layer once more -/

theorem overlay_eq_self
    (h : ∀ field ∈ overrides, ∃ v, base.lookup field.1 = some v ∧ overlayValue (some v) field.2 = v) :
    overlay base overrides = base := by
  induction overrides with
  | nil => simp only [overlay]
  | cons field overrides ih =>
    obtain ⟨⟨v, hlookup, hv⟩, hrest⟩ := List.forall_mem_cons.mp h
    rw [overlay, hlookup, hv, Value.setField_self hlookup]
    exact ih hrest

theorem overlayValue_again (hv : Keyed v) (base? : Option Value) :
    overlayValue (some (overlayValue base? v)) v = overlayValue base? v := by
  induction hv generalizing base? with
  | leaf hleaf => simp only [overlayValue_leaf hleaf]
  | @object overrides hdistinct _ ih =>
    -- what is seen under each key is there already, also where only the layer itself is below
    have hself : overlay overrides overrides = overrides := by
      refine overlay_eq_self fun field hfield => ⟨field.2, (lookup_iff_mem hdistinct).mpr hfield, ?_⟩
      simpa only [overlayValue_none] using ih field hfield none
    have hagain (base : List (String × Value)) :
        overlay (overlay base overrides) overrides = overlay base overrides := by
      refine overlay_eq_self fun field hfield => ⟨overlayValue (base.lookup field.1) field.2, ?_, ?_⟩
      · rw [lookup_overlay hdistinct, (lookup_iff_mem hdistinct).mpr hfield]
      · exact ih field hfield (base.lookup field.1)
    match base? with
    | some (.object base) => simp only [overlayValue, hagain base]
    | none | some .null | some (.bool _) | some (.int _) | some (.float _) | some (.str _)
    | some (.list _) => simp only [overlayValue, hself]

theorem overlay_again (h : Keyed (.object overrides)) (base : List (String × Value)) :
    overlay (overlay base overrides) overrides = overlay base overrides := by
  simpa only [overlayValue, Value.object.injEq] using overlayValue_again h (some (.object base))

/-! ## The environment as a layer -/

/-- A variable of the environment, where its setting stands, and how its text is read. -/
structure Variable where
  name : String
  path : List String
  value : String → Value

/-- The variables that the settings take notice of. -/
def recognized : List Variable := [
  ⟨"DATABASE_URL", ["database_url"], .str⟩,
  ⟨"CLASSLOOM_LOG_LEVEL", ["log_level"], fun s => .str (Text.upper s)⟩,
  ⟨"CLASSLOOM_DEFAULT_IMPORT_NAMESPACE", ["generator", "default_import_namespace"], .str⟩,
  ⟨"CLASSLOOM_SYNTHESIZE_SUPERTYPES", ["inference", "synthesize_supertypes"],
    fun s => .bool (saysYes s)⟩]

/-- The setting that a variable gives, if it is set. -/
def Variable.given? (x : Variable) (env : Environment) : Option Value := (env.get? x.name).map x.value

section Environment

variable {env : Environment} {x : Variable}

theorem Variable.isLeaf_given (hx : x ∈ recognized) (h : x.given? env = some v) : v.isLeaf = true := by
  obtain ⟨s, -, rfl⟩ := Option.map_eq_some_iff.mp h
  simp only [recognized, List.mem_cons, List.not_mem_nil, or_false] at hx
  rcases hx with rfl | rfl | rfl | rfl <;> rfl

theorem mem_fieldIf {name : String} {v? : Option Value} : (key, v) ∈ fieldIf name v? ↔
    ∃ w, v? = some w ∧ ∃ rest, [name] = key :: rest ∧ v = Value.nest rest w := by
  cases v? <;> simp [fieldIf, Value.nest, eq_comm]

theorem mem_groupIf {name inner : String} {v? : Option Value} :
    (key, v) ∈ groupIf name (fieldIf inner v?) ↔
      ∃ w, v? = some w ∧ ∃ rest, [name, inner] = key :: rest ∧ v = Value.nest rest w := by
  cases v? <;> simp [groupIf, fieldIf, Value.nest, eq_comm]

theorem keys_fieldIf (name : String) (v? : Option Value) :
    ((fieldIf name v?).map (·.1)).Sublist [name] := by
  cases v? <;> simp [fieldIf]

theorem keys_groupIf (name : String) (fields : List (String × Value)) :
    ((groupIf name fields).map (·.1)).Sublist [name] := by
  unfold groupIf
  split <;> simp

theorem nodup_ofEnvironment (env : Environment) : ((ofEnvironment env).map (·.1)).Nodup := by
  have hsub : ((ofEnvironment env).map (·.1)).Sublist
      ["database_url", "log_level", "generator", "inference"] := by
    simp only [ofEnvironment, List.map_append]
    exact (((keys_fieldIf _ _).append (keys_fieldIf _ _)).append (keys_groupIf _ _)).append
      (keys_groupIf _ _)
  exact hsub.nodup (by decide)

/-- The fields that the environment gives are the settings of its variables at their paths. -/
theorem mem_ofEnvironment : (key, v) ∈ ofEnvironment env ↔
    ∃ x ∈ recognized, ∃ w, x.given? env = some w ∧
      ∃ rest, x.path = key :: rest ∧ v = Value.nest rest w := by
  simp only [ofEnvironment, List.mem_append, mem_fieldIf, mem_groupIf, recognized, List.mem_cons,
    List.not_mem_nil, or_false, exists_eq_or_imp, exists_eq_left, Variable.given?, or_assoc]

theorem lookup_ofEnvironment : (ofEnvironment env).lookup key = some v ↔ (key, v) ∈ ofEnvironment env :=
  lookup_iff_mem (nodup_ofEnvironment env)

theorem keyed_ofEnvironment (env : Environment) : Keyed (.object (ofEnvironment env)) := by
  refine .object (nodup_ofEnvironment env) fun field hfield => ?_
  obtain ⟨x, hx, w, hw, rest, -, hfield⟩ := mem_ofEnvironment.mp hfield
  rw [hfield]
  exact Value.keyed_nest (Variable.isLeaf_given hx hw) rest

theorem path_ne_nil (hx : x ∈ recognized) : x.path ≠ [] := by
  simp only [recognized, List.mem_cons, List.not_mem_nil, or_false] at hx
  rcases hx with rfl | rfl | rfl | rfl <;> simp

/-- Every variable that is set gives its setting at its path. -/
theorem at?_ofEnvironment (hx : x ∈ recognized) (h : x.given? env = some v) :
    (Value.object (ofEnvironment env)).at? x.path = some v := by
  obtain ⟨key, rest, hpath⟩ := List.exists_cons_of_ne_nil (path_ne_nil hx)
  have hmem : (key, Value.nest rest v) ∈ ofEnvironment env :=
    mem_ofEnvironment.mpr ⟨x, hx, v, h, rest, hpath, rfl⟩
  rw [hpath]
  exact Option.bind_eq_some_iff.mpr ⟨_, lookup_ofEnvironment.mpr hmem, Value.at?_nest_self rest v⟩

/-- The environment has nothing but the settings of its variables, and the groups around them. -/
theorem exists_of_at?_ofEnvironment (hpath : path ≠ [])
    (h : (Value.object (ofEnvironment env)).at? path = some v) :
    ∃ x ∈ recognized, ∃ w, x.given? env = some w ∧ ∃ rest, x.path = path ++ rest ∧ v.at? rest = some w := by
  obtain ⟨key, path, rfl⟩ := List.exists_cons_of_ne_nil hpath
  obtain ⟨u, hu, hv⟩ := Option.bind_eq_some_iff.mp h
  obtain ⟨x, hx, w, hw, place, hplace, rfl⟩ := mem_ofEnvironment.mp (lookup_ofEnvironment.mp hu)
  obtain ⟨rest, rfl, hrest⟩ := Value.at?_nest (Variable.isLeaf_given hx hw) hv
  exact ⟨x, hx, w, hw, rest, hplace, hrest⟩

/-- Neither of two paths goes on from the other. -/
def Apart (path other : List String) : Prop := ¬ path <+: other ∧ ¬ other <+: path

theorem showsThrough_ofEnvironment (hpath : path ≠ []) :
    ShowsThrough (.object (ofEnvironment env)) path ↔
      ∀ x ∈ recognized, x.given? env ≠ none → Apart x.path path := by
  constructor
  · intro h x hx hgiven
    obtain ⟨w, hw⟩ := Option.ne_none_iff_exists'.mp hgiven
    have hat := at?_ofEnvironment hx hw
    constructor
    · intro hbelow
      by_cases heq : x.path = path
      · rw [heq, h.nothing] at hat
        cases hat
      · have hopen := h.noLeaf x.path hbelow heq w hat
        rw [Variable.isLeaf_given hx hw] at hopen
        cases hopen
    · rintro ⟨rest, hrest⟩
      rw [← hrest, Value.at?_append, h.nothing] at hat
      cases hat
  · intro h
    refine ⟨?_, fun place hplace hne v hv => ?_⟩
    · by_contra hsome
      obtain ⟨v, hv⟩ := Option.ne_none_iff_exists'.mp hsome
      obtain ⟨x, hx, w, hw, rest, hrest, -⟩ := exists_of_at?_ofEnvironment hpath hv
      exact (h x hx (by simp [hw])).2 ⟨rest, hrest.symm⟩
    · by_cases hnil : place = []
      · subst hnil
        cases hv
        rfl
      · by_contra hleaf
        obtain ⟨x, hx, w, hw, rest, hrest, hv⟩ := exists_of_at?_ofEnvironment hnil hv
        obtain ⟨rfl, -⟩ := Value.eq_nil_of_at?_leaf (by simpa using hleaf) hv
        rw [List.append_nil] at hrest
        exact (h x hx (by simp [hw])).1 (hrest ▸ hplace)

/-- A leaf of the settings is what a variable gives, or stands in the file apart from all variables that
are set. -/
theorem at?_overlay_ofEnvironment (hv : v.isLeaf = true) (file : List (String × Value)) :
    (Value.object (overlay file (ofEnvironment env))).at? path = some v ↔
      (∃ x ∈ recognized, x.path = path ∧ x.given? env = some v) ∨
        (Value.object file).at? path = some v ∧
          ∀ x ∈ recognized, x.given? env ≠ none → Apart x.path path := by
  by_cases hpath : path = []
  · subst hpath
    have hno (fields : List (String × Value)) : (Value.object fields).at? [] ≠ some v := by
      rintro ⟨⟩
      cases hv
    simp only [hno, false_and, or_false, false_iff]
    rintro ⟨x, hx, hnil, -⟩
    exact path_ne_nil hx hnil
  · have hlayers := at?_overlayValue (some (.object file)) path (keyed_ofEnvironment env) hv
    rw [show overlayValue (some (.object file)) (.object (ofEnvironment env)) =
      .object (overlay file (ofEnvironment env)) by simp only [overlayValue]] at hlayers
    rw [hlayers, showsThrough_ofEnvironment hpath]
    refine or_congr_left ⟨fun h => ?_, ?_⟩
    · obtain ⟨x, hx, w, hw, rest, hrest, h⟩ := exists_of_at?_ofEnvironment hpath h
      obtain ⟨rfl, rfl⟩ := Value.eq_nil_of_at?_leaf hv h
      exact ⟨x, hx, by simpa using hrest, hw⟩
    · rintro ⟨x, hx, rfl, h⟩
      exact at?_ofEnvironment hx h

end Environment

/-! ## Settings under an environment -/

open Schema

/-- The settings with what the environment gives in the place of their own. Only a log level can be wrong
there. -/
def under (env : Environment) (s : Settings) : Except (List Complaint) Settings :=
  (match env.get? "CLASSLOOM_LOG_LEVEL" with
    | some level => levelAt [.key "log_level"] (.str (Text.upper level))
    | none => .ok s.logLevel).map fun level =>
      { s with
        databaseUrl := (env.get? "DATABASE_URL").getD s.databaseUrl
        logLevel := level
        generator := { s.generator with
          defaultNamespace :=
            (env.get? "CLASSLOOM_DEFAULT_IMPORT_NAMESPACE").getD s.generator.defaultNamespace }
        inference := { s.inference with
          synthesizeSupertypes := ((env.get? "CLASSLOOM_SYNTHESIZE_SUPERTYPES").map saysYes).getD
            s.inference.synthesizeSupertypes } }

section Under

variable {env : Environment} {x : Variable} {file fields inner : List (String × Value)} {s : Settings}
  {α : Type} {default a : α} {place : List Step} {name : String}

theorem settle_eq_ok {checked : Checked α} : settle checked = .ok a ↔ checked = (a, []) := by
  obtain ⟨b, complaints⟩ := checked
  cases complaints <;> simp [settle]

theorem check_eq (fields : List (String × Value)) : check fields =
    let databaseUrl := checkField fields [] "database_url" "sqlite:///classloom.db" textAt
    let logLevel := checkField fields [] "log_level" "INFO" levelAt
    let extraction := checkGroup fields [] "extraction" {} extractionAt
    let inference := checkGroup fields [] "inference" {} inferenceAt
    let generator := checkGroup fields [] "generator" {} generatorAt
    let layout := checkGroup fields [] "layout" Grid.Options.standard layoutAt
    settle (⟨databaseUrl.1, logLevel.1, extraction.1, inference.1, generator.1, layout.1⟩,
      databaseUrl.2 ++ logLevel.2 ++ extraction.2 ++ inference.2 ++ generator.2 ++ layout.2) := rfl

/-- The parts of settings in which nothing is wrong. -/
structure Sound (fields : List (String × Value)) (s : Settings) : Prop where
  databaseUrl : checkField fields [] "database_url" "sqlite:///classloom.db" textAt = (s.databaseUrl, [])
  logLevel : checkField fields [] "log_level" "INFO" levelAt = (s.logLevel, [])
  extraction : checkGroup fields [] "extraction" {} extractionAt = (s.extraction, [])
  inference : checkGroup fields [] "inference" {} inferenceAt = (s.inference, [])
  generator : checkGroup fields [] "generator" {} generatorAt = (s.generator, [])
  layout : checkGroup fields [] "layout" Grid.Options.standard layoutAt = (s.layout, [])

theorem sound_of_check (h : check fields = .ok s) : Sound fields s := by
  rw [check_eq, settle_eq_ok] at h
  obtain ⟨rfl, hnone⟩ := Prod.mk.inj h
  simp only [List.append_eq_nil_iff] at hnone
  obtain ⟨⟨⟨⟨⟨h₁, h₂⟩, h₃⟩, h₄⟩, h₅⟩, h₆⟩ := hnone
  exact ⟨Prod.ext rfl h₁, Prod.ext rfl h₂, Prod.ext rfl h₃, Prod.ext rfl h₄, Prod.ext rfl h₅,
    Prod.ext rfl h₆⟩

/-- No two variables give settings under the same key. -/
theorem eq_of_head? {y : Variable} (hx : x ∈ recognized) (hy : y ∈ recognized)
    (h : x.path.head? = y.path.head?) : x = y :=
  List.inj_on_of_nodup_map (f := fun x : Variable => x.path.head?) (by decide) hx hy h

theorem lookup_overlay_given (file : List (String × Value)) (env : Environment) {rest : List String}
    (hx : x ∈ recognized) (hpath : x.path = key :: rest) :
    (overlay file (ofEnvironment env)).lookup key =
      match x.given? env with
      | some v => some (overlayValue (file.lookup key) (Value.nest rest v))
      | none => file.lookup key := by
  have hown : (ofEnvironment env).lookup key = (x.given? env).map (Value.nest rest) := by
    refine Option.ext fun v => ?_
    rw [lookup_ofEnvironment, mem_ofEnvironment, Option.map_eq_some_iff]
    constructor
    · rintro ⟨y, hy, w, hw, rest', hpath', rfl⟩
      obtain rfl := eq_of_head? hx hy (by rw [hpath, hpath']; rfl)
      obtain rfl : rest = rest' := (List.cons.inj (hpath.symm.trans hpath')).2
      exact ⟨w, hw, rfl⟩
    · rintro ⟨w, hw, rfl⟩
      exact ⟨x, hx, w, hw, rest, hpath, rfl⟩
  rw [lookup_overlay (nodup_ofEnvironment env), hown]
  cases x.given? env <;> rfl

theorem lookup_overlay_other (h : ∀ x ∈ recognized, x.path.head? ≠ some key) :
    (overlay file (ofEnvironment env)).lookup key = file.lookup key := by
  have hnone : (ofEnvironment env).lookup key = none := by
    by_contra hsome
    obtain ⟨v, hv⟩ := Option.ne_none_iff_exists'.mp hsome
    obtain ⟨x, hx, w, -, rest, hpath, -⟩ := mem_ofEnvironment.mp (lookup_ofEnvironment.mp hv)
    exact h x hx (by rw [hpath]; rfl)
  rw [lookup_overlay (nodup_ofEnvironment env), hnone]

theorem checkField_congr {check : Check α} (h : fields.lookup key = inner.lookup key) :
    checkField fields place key default check = checkField inner place key default check := by
  rw [checkField, checkField, checkPart, checkPart, h]

theorem checkField_of_lookup {check : Check α} (h : fields.lookup key = some v) :
    checkField fields place key default check =
      match check (place ++ [.key key]) v with
      | .ok a => (a, [])
      | .error complaints => (default, complaints) := by
  cases hcheck : check (place ++ [.key key]) v <;> simp only [checkField, checkPart, h, hcheck]

theorem checkField_setField {check : Check α} (hne : key ≠ name) :
    checkField (Value.setField name v fields) place key default check =
      checkField fields place key default check :=
  checkField_congr (by rw [Value.lookup_setField, if_neg hne])

theorem checkGroup_congr {check : List Step → List (String × Value) → Checked α}
    (h : fields.lookup key = inner.lookup key) :
    checkGroup fields place key default check = checkGroup inner place key default check := by
  rw [checkGroup, checkGroup, h]

/-- A setting of the environment in a group: if nothing was wrong in the group, what is read is that of
the group with this setting in it. -/
theorem checkGroup_overlay {check : List Step → List (String × Value) → Checked α} {b : α}
    (hlookup : (overlay file (ofEnvironment env)).lookup key =
      some (overlayValue (file.lookup key) (.object [(name, v)])))
    (hleaf : v.isLeaf = true) (hfile : checkGroup file place key default check = (a, []))
    (hvoid : check (place ++ [.key key]) [] = (default, []))
    (hset : ∀ inner, check (place ++ [.key key]) inner = (a, []) →
      check (place ++ [.key key]) (Value.setField name v inner) = (b, [])) :
    checkGroup (overlay file (ofEnvironment env)) place key default check = (b, []) := by
  rw [checkGroup, hlookup]
  rw [checkGroup] at hfile
  split at hfile
  · rename_i hnone
    rw [hnone, overlayValue_none]
    exact hset [] (hvoid.trans hfile)
  · rename_i inner hinner
    have hoverlay : overlay inner [(name, v)] = Value.setField name v inner := by
      simp only [overlay, overlayValue_leaf hleaf]
    rw [hinner]
    simp only [overlayValue, hoverlay]
    exact hset inner hfile
  · cases hfile

theorem generatorAt_iff {g : Java.UnitStyle} : generatorAt place fields = (g, []) ↔
    checkField fields place "default_import_namespace" "java.util" textAt = (g.defaultNamespace, []) ∧
      checkField fields place "indent" "\t" textAt = (g.indent, []) ∧
      checkField fields place "file_suffix" ".java" textAt = (g.fileSuffix, []) := by
  unfold generatorAt
  generalize checkField fields place "default_import_namespace" _ _ = p₁
  generalize checkField fields place "indent" _ _ = p₂
  generalize checkField fields place "file_suffix" _ _ = p₃
  cases g
  simp only [Prod.ext_iff, Java.UnitStyle.mk.injEq, List.append_eq_nil_iff]
  tauto

theorem inferenceAt_iff {i : InferenceSettings} : inferenceAt place fields = (i, []) ↔
    checkField fields place "synthesize_supertypes" true truthAt = (i.synthesizeSupertypes, []) ∧
      checkField fields place "namespace_search_order" [] textsAt = (i.searchOrder, []) := by
  unfold inferenceAt
  generalize checkField fields place "synthesize_supertypes" _ _ = p₁
  generalize checkField fields place "namespace_search_order" _ _ = p₂
  cases i
  simp only [Prod.ext_iff, InferenceSettings.mk.injEq, List.append_eq_nil_iff]
  tauto

theorem generatorAt_setField {g : Java.UnitStyle} (namespaceName : String)
    (h : generatorAt place inner = (g, [])) :
    generatorAt place (Value.setField "default_import_namespace" (.str namespaceName) inner) =
      ({ g with defaultNamespace := namespaceName }, []) := by
  obtain ⟨-, hindent, hsuffix⟩ := generatorAt_iff.mp h
  refine generatorAt_iff.mpr ⟨checkField_of_lookup (Value.lookup_setField.trans (if_pos rfl)), ?_, ?_⟩
  · rwa [checkField_setField (by decide)]
  · rwa [checkField_setField (by decide)]

theorem inferenceAt_setField {i : InferenceSettings} (b : Bool)
    (h : inferenceAt place inner = (i, [])) :
    inferenceAt place (Value.setField "synthesize_supertypes" (.bool b) inner) =
      ({ i with synthesizeSupertypes := b }, []) := by
  obtain ⟨-, horder⟩ := inferenceAt_iff.mp h
  refine inferenceAt_iff.mpr ⟨checkField_of_lookup (Value.lookup_setField.trans (if_pos rfl)), ?_⟩
  rwa [checkField_setField (by decide)]

/-- A setting at the top is that of its variable, or that of the file. -/
theorem checkField_overlay {check : Check α} (hx : x ∈ recognized) (hpath : x.path = [key]) :
    checkField (overlay file (ofEnvironment env)) place key default check =
      checkField ((x.given? env).elim file fun v => [(key, v)]) place key default check := by
  refine checkField_congr ?_
  rw [lookup_overlay_given file env hx hpath]
  cases hgiven : x.given? env with
  | none => rfl
  | some v => simp [Value.nest, overlayValue_leaf (Variable.isLeaf_given hx hgiven)]

theorem databaseUrl_overlay (h : Sound file s) (env : Environment) :
    checkField (overlay file (ofEnvironment env)) [] "database_url" "sqlite:///classloom.db" textAt =
      ((env.get? "DATABASE_URL").getD s.databaseUrl, []) := by
  rw [checkField_overlay (x := recognized[0]) (by simp [recognized]) rfl]
  cases hgiven : env.get? "DATABASE_URL" with
  | none => simpa [Variable.given?, recognized, hgiven] using h.databaseUrl
  | some url =>
    simp only [Variable.given?, recognized, List.getElem_cons_zero, hgiven]
    rfl

theorem exists_of_levelAt_error {complaints : List Complaint} (h : levelAt place v = .error complaints) :
    ∃ c, complaints = [c] := by
  dsimp only [levelAt] at h
  split at h
  · cases h
  · cases h
    exact ⟨_, rfl⟩

theorem logLevel_overlay (h : Sound file s) (env : Environment) :
    checkField (overlay file (ofEnvironment env)) [] "log_level" "INFO" levelAt =
      match env.get? "CLASSLOOM_LOG_LEVEL" with
      | some level => checkField [("log_level", .str (Text.upper level))] [] "log_level" "INFO" levelAt
      | none => (s.logLevel, []) := by
  rw [checkField_overlay (x := recognized[1]) (by simp [recognized]) rfl]
  cases hgiven : env.get? "CLASSLOOM_LOG_LEVEL" with
  | none => simpa [Variable.given?, recognized, hgiven] using h.logLevel
  | some level => simp [Variable.given?, recognized, hgiven]

theorem generator_overlay (h : Sound file s) (env : Environment) :
    checkGroup (overlay file (ofEnvironment env)) [] "generator" {} generatorAt =
      ({ s.generator with
        defaultNamespace :=
          (env.get? "CLASSLOOM_DEFAULT_IMPORT_NAMESPACE").getD s.generator.defaultNamespace }, []) := by
  have hlookup := lookup_overlay_given file env (List.getElem_mem (by decide : 2 < recognized.length)) rfl
  cases hgiven : env.get? "CLASSLOOM_DEFAULT_IMPORT_NAMESPACE" with
  | none =>
    have hfile : (overlay file (ofEnvironment env)).lookup "generator" = file.lookup "generator" := by
      simpa [Variable.given?, recognized, hgiven] using hlookup
    rw [checkGroup_congr hfile, h.generator]
    rfl
  | some namespaceName =>
    have hvoid : generatorAt ([] ++ [.key "generator"]) [] = ({}, []) :=
      generatorAt_iff.mpr ⟨rfl, rfl, rfl⟩
    refine checkGroup_overlay (v := .str namespaceName) ?_ rfl h.generator hvoid fun inner hinner =>
      generatorAt_setField namespaceName hinner
    simpa [Variable.given?, recognized, hgiven, Value.nest] using hlookup

theorem inference_overlay (h : Sound file s) (env : Environment) :
    checkGroup (overlay file (ofEnvironment env)) [] "inference" {} inferenceAt =
      ({ s.inference with
        synthesizeSupertypes := ((env.get? "CLASSLOOM_SYNTHESIZE_SUPERTYPES").map saysYes).getD
          s.inference.synthesizeSupertypes }, []) := by
  have hlookup := lookup_overlay_given file env (List.getElem_mem (by decide : 3 < recognized.length)) rfl
  cases hgiven : env.get? "CLASSLOOM_SYNTHESIZE_SUPERTYPES" with
  | none =>
    have hfile : (overlay file (ofEnvironment env)).lookup "inference" = file.lookup "inference" := by
      simpa [Variable.given?, recognized, hgiven] using hlookup
    rw [checkGroup_congr hfile, h.inference]
    rfl
  | some word =>
    have hvoid : inferenceAt ([] ++ [.key "inference"]) [] = ({}, []) := inferenceAt_iff.mpr ⟨rfl, rfl⟩
    rw [Option.map_some, Option.getD_some]
    refine checkGroup_overlay (v := .bool (saysYes word)) ?_ rfl h.inference hvoid fun inner hinner =>
      inferenceAt_setField (saysYes word) hinner
    simpa [Variable.given?, recognized, hgiven, Value.nest] using hlookup

/-- Settings of a file that are sound by themselves come out with what the environment gives in their
place, and otherwise as they were. -/
theorem ofLayers_eq (h : check file = .ok s) (env : Environment) : ofLayers file env = s.under env := by
  have hsound := sound_of_check h
  have hextraction : (overlay file (ofEnvironment env)).lookup "extraction" = file.lookup "extraction" :=
    lookup_overlay_other (by decide)
  have hlayout : (overlay file (ofEnvironment env)).lookup "layout" = file.lookup "layout" :=
    lookup_overlay_other (by decide)
  rw [ofLayers, check_eq, databaseUrl_overlay hsound, logLevel_overlay hsound, generator_overlay hsound,
    inference_overlay hsound, checkGroup_congr hextraction, checkGroup_congr hlayout,
    hsound.extraction, hsound.layout]
  unfold under
  cases hlevel : env.get? "CLASSLOOM_LOG_LEVEL" with
  | none => rfl
  | some level =>
    have hlookup : [("log_level", Value.str (Text.upper level))].lookup "log_level" =
        some (.str (Text.upper level)) := by simp
    have hread : checkField [("log_level", .str (Text.upper level))] [] "log_level" "INFO" levelAt = _ :=
      checkField_of_lookup hlookup
    rw [List.nil_append] at hread
    simp only [hread]
    cases hlevelAt : levelAt [.key "log_level"] (.str (Text.upper level)) with
    | ok a => rfl
    | error complaints =>
      obtain ⟨c, rfl⟩ := exists_of_levelAt_error hlevelAt
      rfl

/-- Layers combine path by path. Over any fields, an upper layer of objects with distinct keys is seen in
each of its leaves, a lower leaf shows through exactly where the upper layer has nothing at its path and
no leaf above it, and no other leaf appears; the same layer once more changes nothing. So the leaves under
an environment are those that its variables give, and those of the file that stand apart from them; and
sound settings of a file come out with what the environment gives in their place. -/
theorem layers_combine (h : Keyed (.object overrides)) (base : List (String × Value)) (env : Environment) :
    (∀ path v, v.isLeaf = true →
      ((Value.object (overlay base overrides)).at? path = some v ↔
        (Value.object overrides).at? path = some v ∨
          (Value.object base).at? path = some v ∧ ShowsThrough (.object overrides) path)) ∧
      overlay (overlay base overrides) overrides = overlay base overrides ∧
      (∀ path v, v.isLeaf = true →
        ((Value.object (overlay base (ofEnvironment env))).at? path = some v ↔
          (∃ x ∈ recognized, x.path = path ∧ x.given? env = some v) ∨
            (Value.object base).at? path = some v ∧
              ∀ x ∈ recognized, x.given? env ≠ none → Apart x.path path)) ∧
      ∀ s, check base = .ok s → ofLayers base env = s.under env := by
  refine ⟨fun path v hv => ?_, overlay_again h base, fun path v hv => at?_overlay_ofEnvironment hv base,
    fun s hsound => ofLayers_eq hsound env⟩
  have hlayers := at?_overlayValue (some (.object base)) path h hv
  simpa only [overlayValue, Option.bind_some] using hlayers

/-- The generator of a file keeps its import namespace under a layer that gives it an indent, and the
search order stays under an environment that gives a namespace and turns off supertypes. Without a
file, such an environment is laid over the defaults. -/
theorem layers_combine_siblings :
    let base : List (String × Value) := [("log_level", .str "DEBUG"),
      ("inference", .object [("namespace_search_order", .list [.str "com.core"])]),
      ("generator", .object [("default_import_namespace", .str "org.util")])]
    let overrides : List (String × Value) := [("log_level", .object [("file", .str "log")]),
      ("generator", .object [("indent", .str " ")]), ("inference", .int 5)]
    let env : Environment := [("CLASSLOOM_DEFAULT_IMPORT_NAMESPACE", "net.util"),
      ("CLASSLOOM_SYNTHESIZE_SUPERTYPES", "false")]
    Keyed (.object overrides) ∧
      (Value.object (overlay base overrides)).at? ["generator", "default_import_namespace"] =
        some (.str "org.util") ∧
      (Value.object (overlay base overrides)).at? ["generator", "indent"] = some (.str " ") ∧
      overlay (overlay base overrides) overrides = overlay base overrides ∧
      (Value.object (overlay base (ofEnvironment env))).at? ["inference", "namespace_search_order"] =
        some (.list [.str "com.core"]) ∧
      (Value.object (overlay base (ofEnvironment env))).at? ["generator", "default_import_namespace"] =
        some (.str "net.util") ∧
      ofLayers [] env = .ok
        { generator := { defaultNamespace := "net.util" }, inference := { synthesizeSupertypes := false } } := by
  intro base overrides env
  have hkeyed : Keyed (.object overrides) := by
    refine .object (by decide) fun field hfield => ?_
    simp only [overrides, List.mem_cons, List.not_mem_nil, or_false] at hfield
    rcases hfield with rfl | rfl | rfl
    · exact Value.keyed_nest rfl ["file"]
    · exact Value.keyed_nest rfl ["indent"]
    · exact .leaf rfl
  obtain ⟨hleaves, hagain, henv, -⟩ := layers_combine hkeyed base env
  obtain ⟨-, -, -, hload⟩ := layers_combine hkeyed [] env
  refine ⟨hkeyed, ?_, ?_, hagain, ?_, ?_, ?_⟩
  · refine (hleaves _ _ rfl).mpr (.inr ⟨rfl, showsThrough_cons.mpr fun v hv => ?_⟩)
    cases hv
    exact showsThrough_cons.mpr fun w hw => by cases hw
  · exact (hleaves _ _ rfl).mpr (.inl rfl)
  · refine (henv _ _ rfl).mpr (.inr ⟨rfl, ?_⟩)
    unfold Apart
    decide
  · exact (henv _ _ rfl).mpr (.inl ⟨recognized[2], by simp [recognized], rfl, rfl⟩)
  · exact hload {} rfl

end Under

end ClassAtlas.Settings
