import RoverFleet.Proofs.Layers
import RoverFleet.Proofs.Outcome

/-!
# What the environment gives

The variables that count are told by their names in lower case. A section is given by its own
variable as JSON, in which the variables of its keys set their values, or by these variables alone.
-/
namespace RoverFleet.Settings

namespace Target
variable {a b name : String} {ps qs : List String} {t : Target} {s : List Char}

theorem split_ne_nil (s : List Char) : split s ≠ [] := by
  fun_cases split s <;> simp

/-- Double underscores between the parts give the text again. -/
theorem split_join (s : List Char) : ['_', '_'].intercalate (split s) = s := by
  fun_induction split s with
  | case1 => rfl
  | case2 s ih =>
    obtain ⟨part, more, hsplit⟩ := List.exists_cons_of_ne_nil (split_ne_nil s)
    rw [hsplit] at ih ⊢
    rw [List.intercalate_cons_cons, ih]
    rfl
  | case3 c s h part more hsplit ih =>
    rw [hsplit] at ih
    cases more with
    | nil =>
      simp only [List.intercalate_singleton] at ih ⊢
      rw [ih]
    | cons next more =>
      rw [List.intercalate_cons_cons] at ih ⊢
      rw [← ih]
      rfl
  | case4 c s h hsplit => exact absurd hsplit (split_ne_nil s)

/-- A part without underscores ends at the first double one. -/
theorem split_append {part : List Char} (h : '_' ∉ part) (s : List Char) :
    split (part ++ '_' :: '_' :: s) = part :: split s := by
  induction part with
  | nil => rfl
  | cons c rest ih =>
    rw [List.mem_cons, not_or] at h
    rw [List.cons_append, split, ih h.2]
    rintro t rfl
    exact absurd rfl h.1

theorem mem_of_mem_split {part : List Char} {c : Char} (h : part ∈ split s) (hc : c ∈ part) :
    c ∈ s := by
  fun_induction split s generalizing part with
  | case1 =>
    obtain rfl := List.mem_singleton.mp h
    exact hc
  | case2 s ih =>
    rcases List.mem_cons.mp h with rfl | h
    · cases hc
    · exact List.mem_cons_of_mem _ (List.mem_cons_of_mem _ (ih h hc))
  | case3 d s hd first more hsplit ih =>
    rw [hsplit] at ih
    rcases List.mem_cons.mp h with rfl | h
    · rcases List.mem_cons.mp hc with rfl | hc
      · exact List.mem_cons_self
      · exact List.mem_cons_of_mem d (ih List.mem_cons_self hc)
    · exact List.mem_cons_of_mem d (ih (List.mem_cons_of_mem first h) hc)
  | case4 d s hd hsplit => exact absurd hsplit (split_ne_nil s)

theorem lowerAscii_of_parts? (h : parts? name = some ps) :
    Text.lowerAscii name.toList = marker ++ ['_', '_'].intercalate (ps.map String.toList) := by
  unfold parts? at h
  dsimp only at h
  split_ifs at h with hmarker
  obtain rfl := Option.some.inj h
  obtain ⟨rest, hrest⟩ := List.isPrefixOf_iff_prefix.mp hmarker
  have hparts (ls : List (List Char)) : (ls.map String.ofList).map String.toList = ls := by
    rw [List.map_map]
    exact (List.map_congr_left fun _ _ => String.toList_ofList).trans (List.map_id ls)
  rw [hparts, ← hrest, List.drop_left, split_join]

/-- Names with the same parts are the same in lower case. -/
theorem lowered_of_parts? (h : parts? a = some ps) (h' : parts? b = some ps) :
    lowered a = lowered b := by
  rw [lowered, lowered, lowerAscii_of_parts? h, lowerAscii_of_parts? h']

/-- The parts that a target is told by, apart from those below a key. -/
def parts : Target → List String
  | .plain name | .wholeSection name => [name]
  | .sectionKey s key | .belowKey s key => [s, key]

theorem ofParts?_cases (h : ofParts? ps = some t) :
    ps = t.parts ∧ (∀ s key, t ≠ .belowKey s key) ∨
      ∃ s key, t = .belowKey s key ∧ ∃ word below, ps = s :: key :: word :: below := by
  rcases ps with _ | ⟨name, _ | ⟨key, below⟩⟩
  · cases h
  · rw [ofParts?] at h
    split_ifs at h <;> cases h <;> exact .inl ⟨rfl, nofun⟩
  · rw [ofParts?] at h
    split_ifs at h with hs hbelow
    · cases h
      rw [List.isEmpty_iff.mp hbelow]
      exact .inl ⟨rfl, nofun⟩
    · cases h
      cases below with
      | nil => exact absurd rfl hbelow
      | cons word below => exact .inr ⟨_, _, rfl, word, below, rfl⟩

theorem ofName?_congr (h : lowered a = lowered b) : ofName? a = ofName? b := by
  have hlower : Text.lowerAscii a.toList = Text.lowerAscii b.toList := String.ofList_injective h
  rw [ofName?, ofName?, parts?, parts?, hlower]

/-- A variable is told by its name in lower case. -/
theorem ofName?_eq_some_iff (ht : ∀ s key, t ≠ .belowKey s key) (hlower : lowered name = name)
    (hname : ofName? name = some t) : ofName? a = some t ↔ lowered a = name := by
  constructor
  · intro h
    have hparts {b : String} (h : ofName? b = some t) : parts? b = some t.parts := by
      obtain ⟨ps, hps, hb⟩ := Option.bind_eq_some_iff.mp h
      rcases ofParts?_cases hb with ⟨rfl, -⟩ | ⟨s, key, rfl, -⟩
      · exact hps
      · exact absurd rfl (ht s key)
    rw [← hlower, lowered_of_parts? (hparts h) (hparts hname)]
  · intro h
    rw [← hname]
    exact ofName?_congr (h.trans hlower.symm)

/-- Keys are taken from a name in lower case. -/
theorem lowered_key {home key : String}
    (h : ofName? a = some (.sectionKey home key) ∨ ofName? a = some (.belowKey home key)) :
    lowered key = key := by
  have hmem : ∃ ps, parts? a = some ps ∧ key ∈ ps := by
    rcases h with h | h
    all_goals
      obtain ⟨ps, hps, h⟩ := Option.bind_eq_some_iff.mp h
      refine ⟨ps, hps, ?_⟩
      rcases ofParts?_cases h with ⟨rfl, -⟩ | ⟨s, k, heq, word, below, rfl⟩
      · simp [parts]
      · cases heq <;> simp
  obtain ⟨ps, hps, hkey⟩ := hmem
  unfold parts? at hps
  dsimp only at hps
  split_ifs at hps
  obtain rfl := Option.some.inj hps
  obtain ⟨part, hpart, rfl⟩ := List.mem_map.mp hkey
  have hlower (c : Char) (hc : c ∈ part) : c.toLower = c := by
    obtain ⟨d, -, rfl⟩ := List.mem_map.mp (List.mem_of_mem_drop (mem_of_mem_split hpart hc))
    exact Char.toLower_toLower_eq_toLower d
  rw [lowered, String.toList_ofList, Text.lowerAscii, List.map_congr_left hlower, List.map_id']

/-- What is below a key is told by the start of its name. -/
theorem ofName?_eq_below_iff {home key : String} (hs : sectionNames.contains home = true)
    (hs' : '_' ∉ home.toList) (hkey : '_' ∉ key.toList) :
    ofName? a = some (.belowKey home key) ↔
      marker ++ (home.toList ++ '_' :: '_' :: (key.toList ++ ['_', '_'])) <+:
        Text.lowerAscii a.toList := by
  constructor
  · intro h
    obtain ⟨ps, hps, h⟩ := Option.bind_eq_some_iff.mp h
    rcases ofParts?_cases h with ⟨-, hne⟩ | ⟨s, k, heq, word, below, rfl⟩
    · exact absurd rfl (hne _ _)
    · cases heq
      refine ⟨['_', '_'].intercalate ((word :: below).map String.toList), ?_⟩
      rw [lowerAscii_of_parts? hps]
      simp only [List.map_cons, List.intercalate_cons_cons, List.append_assoc, List.cons_append,
        List.nil_append]
  · rintro ⟨rest, hrest⟩
    have hsplit : split (home.toList ++ '_' :: '_' :: (key.toList ++ '_' :: '_' :: rest)) =
        home.toList :: key.toList :: split rest := by
      rw [split_append hs', split_append hkey]
    have hparts : parts? a = some (home :: key :: (split rest).map String.ofList) := by
      unfold parts?
      rw [← hrest]
      simp [hsplit]
    have hbelow : ((split rest).map String.ofList).isEmpty = false := by
      simp [split_ne_nil]
    rw [ofName?, hparts, Option.bind_some, ofParts?, if_pos hs, hbelow]
    rfl

end Target

namespace Variables
variable {environment : List (String × String)} {name : String} {t : Target}

/-- The value of the last variable of a name, whatever its letter case. -/
def given? (environment : List (String × String)) (name : String) : Option String :=
  (environment.reverse.find? fun v => lowered v.1 = name).map (·.2)

theorem last?_givens (h : ∀ a, Target.ofName? a = some t ↔ lowered a = name) :
    last? (givens environment) t = given? environment name := by
  rw [last?, givens, given?, ← List.filterMap_reverse]
  induction environment.reverse with
  | nil => rfl
  | cons v rest ih =>
    by_cases hv : lowered v.1 = name
    · rw [List.filterMap_cons, (h v.1).mpr hv, List.find?_cons_of_pos (by simpa using hv)]
      simp
    · rw [List.find?_cons_of_neg (by simpa using hv), ← ih, List.filterMap_cons]
      cases hv' : Target.ofName? v.1 with
      | none => rfl
      | some u =>
        have hne : (t == u) = false := by
          refine beq_eq_false_iff_ne.mpr fun heq => hv ((h v.1).mp ?_)
          rw [hv', heq]
        rw [Option.map_some]
        simp only [List.lookup_cons, hne]

theorem exists_given_iff :
    (∃ g ∈ givens environment, g.1 = t) ↔ ∃ v ∈ environment, Target.ofName? v.1 = some t := by
  constructor
  · rintro ⟨g, hg, rfl⟩
    obtain ⟨v, hv, heq⟩ := List.mem_filterMap.mp hg
    obtain ⟨t, ht, rfl⟩ := Option.map_eq_some_iff.mp heq
    exact ⟨v, hv, ht⟩
  · rintro ⟨v, hv, ht⟩
    exact ⟨(t, v.2), List.mem_filterMap.mpr ⟨v, hv, by rw [ht]; rfl⟩, rfl⟩

section Keys
variable {givens : Givens} {keys upper lower fields : Fields} {key : String} {v : Value}

theorem last?_concat (givens : Givens) (g : Target × String) (t : Target) :
    last? (givens ++ [g]) t = if g.1 = t then some g.2 else last? givens t := by
  rw [last?, List.reverse_append, List.reverse_singleton, List.singleton_append, List.lookup_cons]
  split_ifs with ht
  · simp [ht]
  · rw [beq_eq_false_iff_ne.mpr (Ne.symm ht)]
    rfl

theorem lookup_addKey (name : String) (keys : Fields) (g : Target × String) (key : String) :
    (addKey name keys g).lookup key =
      if g.1 = .sectionKey name key then some (.string g.2)
      else if g.1 = .belowKey name key then (keys.lookup key).or (some (.object []))
      else keys.lookup key := by
  obtain ⟨t, s⟩ := g
  cases t with
  | plain n => rfl
  | wholeSection n => rfl
  | sectionKey home k =>
    simp only [addKey, Target.sectionKey.injEq, reduceCtorEq, if_false]
    split_ifs with hhome hboth hboth
    · rw [Fields.lookup_put, if_pos hboth.2.symm]
    · rw [Fields.lookup_put, if_neg fun h => hboth ⟨hhome, h.symm⟩]
    · exact absurd hboth.1 hhome
    · rfl
  | belowKey home k =>
    simp only [addKey, Target.belowKey.injEq, reduceCtorEq, if_false, keys.has_eq_isSome,
      Bool.and_eq_true, decide_eq_true_eq, Bool.not_eq_true', Option.isSome_eq_false_iff,
      Option.isNone_iff_eq_none]
    split_ifs with hnew hboth hboth
    · rw [Fields.lookup_put, if_pos hboth.2.symm, ← hboth.2, hnew.2]
      rfl
    · rw [Fields.lookup_put, if_neg fun h => hboth ⟨hnew.1, h.symm⟩]
    · obtain ⟨rfl, rfl⟩ := hboth
      obtain ⟨w, hw⟩ := Option.ne_none_iff_exists'.mp fun h => hnew ⟨rfl, h⟩
      rw [hw]
      rfl
    · rfl

theorem lookup_sectionKeys (givens : Givens) (name key : String) :
    (sectionKeys givens name).lookup key =
      ((last? givens (.sectionKey name key)).map Value.string).or
        (if ∃ g ∈ givens, g.1 = .belowKey name key then some (.object []) else none) := by
  induction givens using List.reverseRecOn with
  | nil => rfl
  | append_singleton givens g ih =>
    have hstep : sectionKeys (givens ++ [g]) name = addKey name (sectionKeys givens name) g := by
      rw [sectionKeys, List.foldl_append]
      rfl
    have hmem : (∃ f ∈ givens ++ [g], f.1 = .belowKey name key) ↔
        (∃ f ∈ givens, f.1 = .belowKey name key) ∨ g.1 = .belowKey name key := by
      simp only [List.mem_append, List.mem_singleton, or_and_right, exists_or, exists_eq_left]
    rw [hstep, lookup_addKey, ih, last?_concat]
    by_cases hdirect : g.1 = .sectionKey name key
    · rw [if_pos hdirect, if_pos hdirect]
      rfl
    rw [if_neg hdirect, if_neg hdirect]
    by_cases hbelow : g.1 = .belowKey name key
    · rw [if_pos hbelow, if_pos (hmem.mpr (.inr hbelow)), Option.or_assoc]
      congr 1
      split_ifs <;> rfl
    · rw [if_neg hbelow]
      simp only [hmem, hbelow, or_false]

theorem nodup_sectionKeys (givens : Givens) (name : String) :
    (sectionKeys givens name).keys.Nodup := by
  induction givens using List.reverseRecOn with
  | nil => exact List.nodup_nil
  | append_singleton givens g ih =>
    rw [sectionKeys, List.foldl_append, ← sectionKeys]
    obtain ⟨t, s⟩ := g
    simp only [List.foldl_cons, List.foldl_nil, addKey]
    split
    · split_ifs
      · exact Fields.nodup_put ih
      · exact ih
    · split_ifs
      · exact Fields.nodup_put ih
      · exact ih
    · exact ih

theorem lowered_of_mem_sectionKeys {k : String}
    (h : k ∈ (sectionKeys (Variables.givens environment) name).keys) : lowered k = k := by
  rw [← Fields.lookup_isSome_iff, lookup_sectionKeys] at h
  rw [Option.isSome_or, Bool.or_eq_true, Option.isSome_map] at h
  rcases h with h | h
  · obtain ⟨s, hs⟩ := Option.isSome_iff_exists.mp h
    obtain ⟨before, after, hsplit, -⟩ := List.lookup_eq_some_iff.mp hs
    have hmem : (Target.sectionKey name k, s) ∈ Variables.givens environment := by
      rw [← List.mem_reverse, hsplit]
      simp
    obtain ⟨v, -, hv⟩ := exists_given_iff.mp ⟨_, hmem, rfl⟩
    exact Target.lowered_key (.inl hv)
  · split_ifs at h with hbelow
    · obtain ⟨v, -, hv⟩ := exists_given_iff.mp hbelow
      exact Target.lowered_key (.inr hv)
    · cases h

/-- The fields whose keys are a key in some letter case. -/
def spelled (fields : Fields) (key : String) : Fields := fields.filter fun f => lowered f.1 = key

/-- The value of the last field whose key is a key in some letter case. -/
def spelled? (fields : Fields) (key : String) : Option Value :=
  (spelled fields key).getLast?.map Prod.snd

theorem spelled_put (name : String) (v : Value) (fields : Fields) (key : String) :
    spelled (Fields.put name v fields) key =
      if lowered name = key then Fields.put name v (spelled fields key)
      else spelled fields key := by
  induction fields with
  | nil =>
    rw [Fields.put, spelled]
    split_ifs with h <;> simp [h, spelled, Fields.put]
  | cons f rest ih =>
    unfold spelled at ih ⊢
    rw [Fields.put]
    split_ifs with hname hkey hkey
    · simp [hname, hkey, Fields.put]
    · simp [hname, hkey]
    · rw [if_pos hkey] at ih
      rw [List.filter_cons, List.filter_cons, ih]
      split_ifs
      · rw [Fields.put, if_neg hname]
      · rfl
    · rw [if_neg hkey] at ih
      rw [List.filter_cons, List.filter_cons, ih]

/-- Distinct keys in lower case set over other fields: of each key the one that it is counts. -/
theorem spelled_putAll (hnodup : upper.keys.Nodup) (hlower : ∀ k ∈ upper.keys, lowered k = k)
    (lower : Fields) (key : String) :
    spelled (Fields.putAll upper lower) key =
      spelled ((upper.lookup key).elim lower fun v => Fields.put key v lower) key := by
  induction upper generalizing lower with
  | nil => rfl
  | cons f rest ih =>
    obtain ⟨hf, hrest⟩ := List.nodup_cons.mp hnodup
    have hlower' : ∀ k ∈ Fields.keys rest, lowered k = k :=
      fun k hk => hlower k (List.mem_cons_of_mem f.1 hk)
    rw [Fields.putAll, List.foldl_cons, ← Fields.putAll, ih hrest hlower', Fields.lookup_cons]
    split_ifs with hkey
    · rw [hkey, Fields.lookup_eq_none hf]
      rfl
    · have hne : lowered f.1 ≠ key := fun h => hkey (h.symm.trans (hlower f.1 List.mem_cons_self))
      cases List.lookup key rest with
      | none =>
        rw [Option.elim_none, Option.elim_none, spelled_put, if_neg hne]
      | some v =>
        rw [Option.elim_some, Option.elim_some, spelled_put, spelled_put key, spelled_put f.1,
          if_neg hne]

theorem last?_renamed {rename : String → String} (h : ∀ s, rename s = key ↔ lowered s = key)
    (fields : Fields) :
    Fields.last? (fields.map fun f => (rename f.1, f.2)) key = spelled? fields key := by
  induction fields with
  | nil => rfl
  | cons f rest ih =>
    rw [List.map_cons, Fields.last?_cons, ih, spelled?, spelled?, spelled, spelled,
      List.filter_cons]
    by_cases hf : lowered f.1 = key
    · rw [if_pos ((h _).mpr hf).symm, if_pos (by simpa using hf), List.getLast?_cons]
      cases (rest.filter fun f => lowered f.1 = key).getLast? <;> rfl
    · rw [if_neg fun heq => hf ((h _).mp heq.symm), if_neg (by simpa using hf), Option.or_none]

/-- A section looks its keys up in any letter case. -/
theorem lookup_knownKeys (hkey : key ∈ (sections.lookup name).getD []) (hlower : lowered key = key)
    (fields : Fields) : (knownKeys name fields).lookup key = spelled? fields key := by
  have hrename (s : String) :
      (((sections.lookup name).getD []).find? (· = lowered s)).getD s = key ↔ lowered s = key := by
    cases hfind : ((sections.lookup name).getD []).find? (· = lowered s) with
    | some known =>
      obtain rfl : known = lowered s := by simpa using List.find?_some hfind
      rfl
    | none =>
      refine ⟨fun heq => ?_, fun heq => ?_⟩
      · obtain rfl : s = key := heq
        exact hlower
      · exact absurd heq.symm (by simpa using List.find?_eq_none.mp hfind key hkey)
  rw [knownKeys, Fields.lookup_putAll]
  exact (congrArg (·.or none) (last?_renamed hrename fields)).trans Option.or_none

end Keys

end Variables

end RoverFleet.Settings
