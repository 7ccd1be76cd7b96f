/-!
Names and what they are bound to.  The entries of a set of bindings keep the
order in which the names were first bound, and no name occurs twice.
-/

namespace Lisp

variable {α : Type}

/-- What a name is bound to among entries. -/
def getEntry? (name : String) : List (String × α) → Option α
  | [] => none
  | entry :: rest =>
      if entry.1 = name then some entry.2 else getEntry? name rest

/-- Bind a name among entries: in place if it is there, and at the end
otherwise. -/
def putEntry (name : String) (value : α) :
    List (String × α) → List (String × α)
  | [] => [(name, value)]
  | entry :: rest =>
      if entry.1 = name then
        (name, value) :: rest
      else
        entry :: putEntry name value rest

theorem map_fst_putEntry (name : String) (value : α)
    (entries : List (String × α)) :
    (putEntry name value entries).map Prod.fst =
      if name ∈ entries.map Prod.fst then entries.map Prod.fst
      else entries.map Prod.fst ++ [name] := by
  induction entries with
  | nil => rfl
  | cons entry rest ih =>
      by_cases hsame : entry.1 = name
      · simp [putEntry, hsame]
      · have hother : ¬ name = entry.1 := fun h => hsame h.symm
        by_cases hmem : name ∈ rest.map Prod.fst <;>
          simp_all [putEntry]

/-- Names with what each is bound to. -/
structure Bindings (α : Type) where
  entries : List (String × α)
  distinct : (entries.map Prod.fst).Nodup

namespace Bindings

/-- No names at all. -/
def empty : Bindings α :=
  ⟨[], List.nodup_nil⟩

instance : Inhabited (Bindings α) := ⟨empty⟩

/-- The bound names. -/
def names (b : Bindings α) : List String :=
  b.entries.map Prod.fst

/-- What a name is bound to. -/
def get? (b : Bindings α) (name : String) : Option α :=
  getEntry? name b.entries

/-- Whether a name is bound. -/
def binds (b : Bindings α) (name : String) : Bool :=
  (b.get? name).isSome

/-- Bind or rebind a name. -/
def insert (b : Bindings α) (name : String) (value : α) : Bindings α where
  entries := putEntry name value b.entries
  distinct := by
    rw [map_fst_putEntry]
    split
    · exact b.distinct
    · next hfresh =>
        rw [List.nodup_append]
        refine ⟨b.distinct, by simp, ?_⟩
        intro old hmemOld new hmemNew hsame
        simp only [List.mem_singleton] at hmemNew
        subst hmemNew
        subst hsame
        exact hfresh hmemOld

/-- Bind names to values one by one, as far as both last; of two equal names
the last counts. -/
def ofLists (names : List String) (values : List α) : Bindings α :=
  (names.zip values).foldl (fun b entry => b.insert entry.1 entry.2) empty

/-- The bindings of `inner`, and those of `outer` that it does not shadow. -/
def shadowing (inner outer : Bindings α) : Bindings α where
  entries := inner.entries ++
    outer.entries.filter fun entry => !inner.names.contains entry.1
  distinct := by
    rw [List.map_append, List.nodup_append]
    refine ⟨inner.distinct, ?_, ?_⟩
    · exact outer.distinct.sublist (List.filter_sublist.map Prod.fst)
    · intro left hmemLeft right hmemRight hsame
      subst hsame
      simp only [List.mem_map, List.mem_filter] at hmemRight
      obtain ⟨entry, ⟨_, hshadow⟩, rfl⟩ := hmemRight
      simp only [Bool.not_eq_eq_eq_not, Bool.not_true,
        List.contains_eq_mem, decide_eq_false_iff_not] at hshadow
      exact hshadow hmemLeft

theorem getEntry?_putEntry (name other : String) (value : α)
    (entries : List (String × α)) :
    getEntry? other (putEntry name value entries) =
      if other = name then some value else getEntry? other entries := by
  induction entries with
  | nil =>
      by_cases hsame : other = name
      · simp [putEntry, getEntry?, hsame]
      · have hne : ¬ name = other := fun h => hsame h.symm
        simp [putEntry, getEntry?, hsame, hne]
  | cons entry rest ih =>
      by_cases hhere : entry.1 = name
      · by_cases hsame : other = name
        · simp [putEntry, getEntry?, hhere, hsame]
        · have hne : ¬ name = other := fun h => hsame h.symm
          simp [putEntry, getEntry?, hhere, hsame, hne]
      · by_cases hthere : entry.1 = other
        · have hne : ¬ other = name := fun h => hhere (hthere.trans h)
          simp [putEntry, getEntry?, hthere, hne]
        · simp [putEntry, getEntry?, hhere, hthere, ih]

/-- Binding a name changes what that name is bound to and nothing else. -/
@[simp] theorem get?_insert (b : Bindings α) (name other : String)
    (value : α) :
    (b.insert name value).get? other =
      if other = name then some value else b.get? other :=
  getEntry?_putEntry name other value b.entries

@[simp] theorem get?_empty (name : String) :
    (empty : Bindings α).get? name = none := rfl

theorem mem_of_getEntry? {name : String} {value : α}
    {entries : List (String × α)}
    (hfound : getEntry? name entries = some value) : (name, value) ∈ entries := by
  induction entries with
  | nil => cases hfound
  | cons entry rest ih =>
      unfold getEntry? at hfound
      split at hfound
      · next hsame =>
          cases hfound
          cases hsame
          exact List.mem_cons_self
      · exact List.mem_cons_of_mem entry (ih hfound)

theorem getEntry?_of_mem {name : String} {value : α}
    {entries : List (String × α)} (hdistinct : (entries.map Prod.fst).Nodup)
    (hmem : (name, value) ∈ entries) : getEntry? name entries = some value := by
  induction entries with
  | nil => cases hmem
  | cons entry rest ih =>
      rw [List.map_cons, List.nodup_cons] at hdistinct
      unfold getEntry?
      rcases List.mem_cons.mp hmem with rfl | hmem
      · exact if_pos rfl
      · have hother : ¬ entry.1 = name := by
          rintro rfl
          exact hdistinct.1 (List.mem_map.mpr ⟨_, hmem, rfl⟩)
        rw [if_neg hother]
        exact ih hdistinct.2 hmem

/-- As no name occurs twice, the entries are the graph of what names are bound
to. -/
theorem mem_entries_iff (b : Bindings α) (name : String) (value : α) :
    (name, value) ∈ b.entries ↔ b.get? name = some value := by
  constructor
  · exact getEntry?_of_mem b.distinct
  · exact mem_of_getEntry?

theorem mem_names_iff (b : Bindings α) (name : String) :
    name ∈ b.names ↔ (b.get? name).isSome := by
  rw [Option.isSome_iff_exists, names, List.mem_map]
  constructor
  · rintro ⟨⟨_, value⟩, hmem, rfl⟩
    exact ⟨value, (b.mem_entries_iff _ value).mp hmem⟩
  · rintro ⟨value, hfound⟩
    exact ⟨(name, value), (b.mem_entries_iff name value).mpr hfound, rfl⟩

/-- A name is bound to what the inner bindings say of it, or else to what the
outer ones do. -/
@[simp] theorem get?_shadowing (inner outer : Bindings α) (name : String) :
    (inner.shadowing outer).get? name =
      (inner.get? name).or (outer.get? name) := by
  apply Option.ext
  intro value
  have hunshadowed : name ∈ inner.names ↔ ¬ inner.get? name = none := by
    rw [mem_names_iff, Option.isSome_iff_ne_none]
  simp only [← mem_entries_iff, shadowing, List.mem_append, List.mem_filter,
    List.contains_eq_mem, Bool.not_eq_true', decide_eq_false_iff_not,
    hunshadowed, Decidable.not_not]
  rw [mem_entries_iff, mem_entries_iff]
  cases inner.get? name with
  | none => simp
  | some own => simp

/-- A name bound one by one is bound to one of the values. -/
theorem mem_of_get?_ofLists {names : List String}
    {values : List α} {name : String} {v : α}
    (hfound : (ofLists names values).get? name = some v) :
    v ∈ values := by
  have hinserted : ∀ (entries : List (String × α)) (b : Bindings α),
      (entries.foldl (fun b entry => b.insert entry.1 entry.2) b).get? name =
        some v → b.get? name = some v ∨ ∃ key, (key, v) ∈ entries := by
    intro entries
    induction entries with
    | nil => exact fun b hfound => .inl hfound
    | cons entry entries ih =>
        intro b hfound
        rcases ih _ hfound with hfound | ⟨key, hmem⟩
        · rw [get?_insert] at hfound
          split at hfound
          · obtain rfl := Option.some.inj hfound
            exact .inr ⟨entry.1, List.mem_cons_self⟩
          · exact .inl hfound
        · exact .inr ⟨key, List.mem_cons_of_mem entry hmem⟩
  rcases hinserted _ _ hfound with hfound | ⟨key, hmem⟩
  · cases hfound
  · exact (List.of_mem_zip hmem).2

theorem get?_foldl_insert_of_not_mem {entries : List (String × α)}
    {name : String} (habsent : name ∉ entries.map Prod.fst) (b : Bindings α) :
    (entries.foldl (fun b entry => b.insert entry.1 entry.2) b).get? name =
      b.get? name := by
  induction entries generalizing b with
  | nil => rfl
  | cons entry entries ih =>
      rw [List.map_cons, List.mem_cons, not_or] at habsent
      rw [List.foldl_cons, ih habsent.2, get?_insert, if_neg habsent.1]

theorem get?_ofLists_of_not_mem {names : List String} {name : String}
    (habsent : name ∉ names) (values : List α) :
    (ofLists names values).get? name = none := by
  apply get?_foldl_insert_of_not_mem
  intro hmem
  obtain ⟨entry, hpaired, rfl⟩ := List.mem_map.mp hmem
  exact habsent (List.of_mem_zip hpaired).1

theorem putEntry_of_not_mem {name : String} {entries : List (String × α)}
    (habsent : name ∉ entries.map Prod.fst) (value : α) :
    putEntry name value entries = entries ++ [(name, value)] := by
  induction entries with
  | nil => rfl
  | cons entry entries ih =>
      rw [List.map_cons, List.mem_cons, not_or] at habsent
      have hother : ¬ entry.1 = name := fun hsame => habsent.1 hsame.symm
      rw [putEntry, if_neg hother, ih habsent.2, List.cons_append]

/-- Distinct names that are new join the entries in their order. -/
theorem entries_foldl_insert {entries : List (String × α)} {b : Bindings α}
    (hdistinct : ((b.entries ++ entries).map Prod.fst).Nodup) :
    (entries.foldl (fun b entry => b.insert entry.1 entry.2) b).entries =
      b.entries ++ entries := by
  induction entries generalizing b with
  | nil => exact (List.append_nil _).symm
  | cons entry entries ih =>
      have habsent : entry.1 ∉ b.entries.map Prod.fst := by
        rw [List.map_append, List.nodup_append] at hdistinct
        intro hmem
        exact hdistinct.2.2 _ hmem entry.1 List.mem_cons_self rfl
      have hjoined : (b.insert entry.1 entry.2).entries =
          b.entries ++ [entry] := putEntry_of_not_mem habsent entry.2
      have hsame : b.entries ++ [entry] ++ entries =
          b.entries ++ entry :: entries := by simp
      rw [List.foldl_cons, ih (by rwa [hjoined, hsame]), hjoined, hsame]

/-- Distinct names are bound to the values one to one. -/
theorem entries_ofLists {names : List String} {values : List α}
    (hdistinct : names.Nodup) (hagree : names.length ≤ values.length) :
    (ofLists names values).entries = names.zip values := by
  apply entries_foldl_insert
  rw [show (empty : Bindings α).entries ++ names.zip values = names.zip values
    from List.nil_append _, List.map_fst_zip hagree]
  exact hdistinct

theorem get?_ofLists_of_mem {names : List String} {values : List α}
    (hdistinct : names.Nodup) (hagree : names.length ≤ values.length)
    {name : String} {value : α} (hmem : (name, value) ∈ names.zip values) :
    (ofLists names values).get? name = some value := by
  rw [← mem_entries_iff, entries_ofLists hdistinct hagree]
  exact hmem

end Bindings

end Lisp
