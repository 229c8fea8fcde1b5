import Mathlib.Data.List.Nodup
import SlotLang.Module

/-!
# SlotLang.Proofs.Index

The table by which a module finds its functions. The table is kept beside the functions and is
looked up instead of them, so the two can be trusted only as long as they agree. A module is
`Indexed` if the table has one entry for each function and no two functions share a name. Every
request keeps it that way, and in an indexed module a name leads to the function that has it.
-/

namespace SlotLang

/-- Among distinct keys, a value can be found wherever it stands. -/
theorem lookup_eq_some_iff_mem {β : Type} {entries : List (String × β)}
    (hkeys : (entries.map Prod.fst).Nodup) {key : String} {value : β} :
    entries.lookup key = some value ↔ (key, value) ∈ entries := by
  rw [List.lookup_eq_some_iff]
  constructor
  · rintro ⟨before, after, rfl, -⟩
    exact List.mem_append_right _ List.mem_cons_self
  · intro hmem
    obtain ⟨before, after, rfl⟩ := List.append_of_mem hmem
    refine ⟨before, after, rfl, fun p hp => ?_⟩
    rw [List.map_append, List.map_cons] at hkeys
    rw [bne_iff_ne]
    exact fun heq => (List.nodup_append.mp hkeys).2.2 _ (List.mem_map_of_mem hp) _
      List.mem_cons_self heq.symm

/-- A key that is not there is not found. -/
theorem lookup_eq_none_iff_notMem {β : Type} {entries : List (String × β)} {key : String} :
    entries.lookup key = none ↔ key ∉ entries.map Prod.fst := by
  rw [List.lookup_eq_none_iff]
  constructor
  · intro h hmem
    obtain ⟨p, hp, rfl⟩ := List.mem_map.mp hmem
    exact bne_iff_ne.mp (h p hp) rfl
  · intro h p hp
    rw [bne_iff_ne]
    rintro rfl
    exact h (List.mem_map_of_mem hp)

namespace Module

/-- The names of the functions. -/
def names (m : Module) : List String := m.functions.map Func.name

/-- The table that belongs to names in this order, the latest first. -/
def tableOf (names : List String) : List (String × Nat) := names.zipIdx.reverse

theorem tableOf_concat (names : List String) (name : String) :
    tableOf (names ++ [name]) = (name, names.length) :: tableOf names := by
  simp [tableOf, List.zipIdx_append]

theorem keys_tableOf (names : List String) : (tableOf names).map Prod.fst = names.reverse := by
  rw [tableOf, List.map_reverse, List.zipIdx_map_fst]

/-- The table has each function under its name, and no two functions share a name. -/
structure Indexed (m : Module) : Prop where
  table : m.index = tableOf m.names
  names : m.names.Nodup

namespace Indexed

variable {m m' : Module}

theorem empty (name : String) : (Module.empty name).Indexed := ⟨rfl, List.nodup_nil⟩

/-- The table knows every name. -/
theorem find?_eq_none_iff (h : m.Indexed) (name : String) :
    m.find? name = none ↔ name ∉ m.names := by
  rw [find?, h.table, lookup_eq_none_iff_notMem, keys_tableOf, List.mem_reverse]

/-- The index that is found for a name is that of the function of this name. -/
theorem find?_eq_some_iff (h : m.Indexed) (name : String) (id : Nat) :
    m.find? name = some id ↔ ∃ f, m.function? id = some f ∧ f.name = name := by
  have hkeys : ((tableOf m.names).map Prod.fst).Nodup := by
    rw [keys_tableOf]
    exact List.nodup_reverse.mpr h.names
  rw [find?, h.table, lookup_eq_some_iff_mem hkeys, tableOf, List.mem_reverse,
    List.mem_zipIdx_iff_getElem?, Module.names, List.getElem?_map, Option.map_eq_some_iff]
  rfl

/-- Without the table one would search the functions from the first to the last. -/
theorem find?_eq (h : m.Indexed) (name : String) :
    m.find? name = m.functions.findIdx? fun f => f.name == name := by
  cases hfind : m.functions.findIdx? fun f => f.name == name with
  | none =>
      rw [h.find?_eq_none_iff]
      simpa [Module.names, List.findIdx?_eq_none_iff] using hfind
  | some id =>
      obtain ⟨hlt, hname, -⟩ := List.findIdx?_eq_some_iff_getElem.mp hfind
      exact (h.find?_eq_some_iff name id).mpr
        ⟨m.functions[id], List.getElem?_eq_getElem hlt, by simpa using hname⟩

/-- A function is entered into the table when it is added, and only under a name that is free. -/
theorem insert {f : Func} {id : Nat} (h : m.Indexed) (hi : m.insert f = .ok id m') :
    m'.Indexed := by
  obtain ⟨hfree, -, -, rfl⟩ := insert_eq_ok_iff.mp hi
  have hnew : f.name ∉ m.names := (h.find?_eq_none_iff f.name).mp hfree
  have hnames : (m.functions ++ [f]).map Func.name = m.names ++ [f.name] := by simp [Module.names]
  constructor
  · rw [Module.names, hnames, tableOf_concat, ← h.table]
    simp [Module.names]
  · rw [Module.names, hnames, ← List.concat_eq_append, List.nodup_concat]
    exact ⟨hnew, h.names⟩

/-- The table is about functions, not about texts. -/
theorem intern (h : m.Indexed) (text : String) : (m.intern text).2.Indexed := by
  unfold Module.intern
  split
  · exact h
  · exact ⟨h.table, h.names⟩

end Indexed

/-- A body changes no name. -/
theorem names_define {m m' : Module} {id : Nat} {code : List Instr} {types : List Ty}
    (h : m.define id code types = .ok () m') : m'.names = m.names := by
  obtain ⟨f, hf, -, -, rfl⟩ := define_eq_ok_iff.mp h
  obtain ⟨hlt, rfl⟩ := List.getElem?_eq_some_iff.mp hf
  have hlt' : id < (m.functions.map Func.name).length := by simpa using hlt
  have hname : m.functions[id].name = (m.functions.map Func.name)[id] := by simp
  rw [names, names, List.map_set, hname, List.set_getElem_self]

/-- So the table has nothing to learn from a body. -/
theorem Indexed.define {m m' : Module} {id : Nat} {code : List Instr} {types : List Ty}
    (h : m.Indexed) (hd : m.define id code types = .ok () m') : m'.Indexed := by
  have hnames := names_define hd
  obtain ⟨f, -, -, -, rfl⟩ := define_eq_ok_iff.mp hd
  exact ⟨by rw [hnames]; exact h.table, by rw [hnames]; exact h.names⟩

end Module

end SlotLang
