import Mathlib.Data.List.Nodup

/-!
# VetHealth.Lib.FileTree

**Directories.** An entry of a directory is a file with its content, a directory with its entries in
the order in which they are read, or something else, such as a link. `filesIn` lists the files below
a directory in the order of a walk that enters a directory where it meets it, each with the names on
the way to it. In a directory whose entries have different names every file has a way of its own
(`nodup_filesIn`).
-/

namespace FileTree

variable {ν β : Type}

inductive Entry (ν β : Type)
  | file (name : ν) (content : β)
  | directory (name : ν) (entries : List (Entry ν β))
  | other (name : ν)

namespace Entry

def name : Entry ν β → ν
  | .file name _ | .directory name _ | .other name => name

end Entry

mutual

/-- The files that an entry is or holds, each with the names on the way to it. An entry that is
neither, such as a link, holds none. -/
def filesOf : Entry ν β → List (List ν × β)
  | .file name content => [([name], content)]
  | .directory name entries => (filesIn entries).map fun file => (name :: file.1, file.2)
  | .other _ => []

/-- The files below a directory with these entries. -/
def filesIn : List (Entry ν β) → List (List ν × β)
  | [] => []
  | entry :: entries => filesOf entry ++ filesIn entries

end

mutual

/-- The entry and what is below it can be called what they are called. A file system gives no entry
a name with a separator in it, so that a way can be written as one text and read back. -/
def IsValid (isName : ν → Prop) : Entry ν β → Prop
  | .file name _ | .other name => isName name
  | .directory name entries => isName name ∧ AreValid isName entries

/-- The entries of a directory are valid and have different names. It is a relation on the list of
entries, since a directory can be read in any order. -/
def AreValid (isName : ν → Prop) : List (Entry ν β) → Prop
  | [] => True
  | entry :: entries =>
      IsValid isName entry ∧ (∀ other ∈ entries, other.name ≠ entry.name) ∧ AreValid isName entries

end

variable {isName : ν → Prop}

/-- The way to a file of an entry begins with the entry. -/
theorem head_of_mem_filesOf {entry : Entry ν β} {file : List ν × β} (h : file ∈ filesOf entry) :
    file.1.head? = some entry.name := by
  cases entry with
  | file name content =>
      rw [filesOf, List.mem_singleton] at h
      rw [h]
      rfl
  | directory name entries =>
      rw [filesOf, List.mem_map] at h
      obtain ⟨inner, -, rfl⟩ := h
      rfl
  | other name => cases h

theorem ne_nil_of_mem_filesIn {entries : List (Entry ν β)} {file : List ν × β}
    (h : file ∈ filesIn entries) : file.1 ≠ [] := by
  induction entries with
  | nil => cases h
  | cons entry entries ih =>
      rcases List.mem_append.1 h with h | h
      · intro hnil
        have hhead := head_of_mem_filesOf h
        rw [hnil] at hhead
        cases hhead
      · exact ih h

mutual

theorem isName_of_mem_filesOf {entry : Entry ν β} (hvalid : IsValid isName entry)
    {file : List ν × β} (h : file ∈ filesOf entry) : ∀ name ∈ file.1, isName name := by
  cases entry with
  | file name content =>
      rw [filesOf, List.mem_singleton] at h
      rw [h]
      exact fun n hn => List.mem_singleton.1 hn ▸ hvalid
  | directory name entries =>
      rw [filesOf, List.mem_map] at h
      obtain ⟨inner, hinner, rfl⟩ := h
      exact List.forall_mem_cons.2 ⟨hvalid.1, isName_of_mem_filesIn hvalid.2 hinner⟩
  | other name => cases h

/-- The names on the way to a file are names. -/
theorem isName_of_mem_filesIn {entries : List (Entry ν β)} (hvalid : AreValid isName entries)
    {file : List ν × β} (h : file ∈ filesIn entries) : ∀ name ∈ file.1, isName name := by
  cases entries with
  | nil => cases h
  | cons entry entries =>
      rcases List.mem_append.1 h with h | h
      · exact isName_of_mem_filesOf hvalid.1 h
      · exact isName_of_mem_filesIn hvalid.2.2 h

end

/-- What lies below different entries has different ways, because the ways differ in the first name
already. -/
theorem disjoint_ways {entry : Entry ν β} {entries : List (Entry ν β)}
    (hnames : ∀ other ∈ entries, other.name ≠ entry.name) {file file' : List ν × β}
    (h : file ∈ filesOf entry) (h' : file' ∈ filesIn entries) : file.1 ≠ file'.1 := by
  intro heq
  induction entries with
  | nil => cases h'
  | cons other entries ih =>
      rcases List.mem_append.1 h' with h' | h'
      · have hhead := head_of_mem_filesOf h
        rw [heq, head_of_mem_filesOf h'] at hhead
        exact hnames other List.mem_cons_self (Option.some.inj hhead)
      · exact ih (fun o ho => hnames o (List.mem_cons_of_mem _ ho)) h'

mutual

theorem nodup_filesOf {entry : Entry ν β} (hvalid : IsValid isName entry) :
    ((filesOf entry).map Prod.fst).Nodup := by
  cases entry with
  | file name content => exact List.nodup_singleton _
  | directory name entries =>
      have hinner := nodup_filesIn hvalid.2
      rw [filesOf, List.map_map]
      have hcons : (Prod.fst ∘ fun file : List ν × β => (name :: file.1, file.2)) =
          List.cons name ∘ Prod.fst := rfl
      rw [hcons, ← List.map_map]
      exact hinner.map (List.cons_injective)
  | other name => exact List.nodup_nil

/-- **Every file has a way of its own.** -/
theorem nodup_filesIn {entries : List (Entry ν β)} (hvalid : AreValid isName entries) :
    ((filesIn entries).map Prod.fst).Nodup := by
  cases entries with
  | nil => exact List.nodup_nil
  | cons entry entries =>
      rw [filesIn, List.map_append]
      refine (nodup_filesOf hvalid.1).append (nodup_filesIn hvalid.2.2) ?_
      intro way hway hway'
      obtain ⟨file, hfile, rfl⟩ := List.mem_map.1 hway
      obtain ⟨file', hfile', heq⟩ := List.mem_map.1 hway'
      exact disjoint_ways hvalid.2.1 hfile hfile' heq.symm

end

end FileTree
