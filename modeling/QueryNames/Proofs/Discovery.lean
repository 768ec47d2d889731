import Mathlib.Data.List.Lex
import Mathlib.Data.List.Nodup
import Mathlib.Data.List.TakeDrop
import Mathlib.Data.List.TakeWhile
import Mathlib.Data.String.Basic
import QueryNames.Files.Discovery
import QueryNames.Text.Lowercase

/-!
Finding query files. Main statement: below a directory each query file is found once and nothing
else, in the order of the parts of the paths.
-/

namespace QueryNames.Files

/-- A part of a path. -/
def IsName (name : String) : Prop := name ≠ "" ∧ '/' ∉ name.toList

instance (name : String) : Decidable (IsName name) := inferInstanceAs (Decidable (_ ∧ _))

namespace Entry

/-- Directories whose entries have names, each of them one's own. -/
inductive IsTree : Entry → Prop
  | file (content : List UInt8) : IsTree (.file content)
  | directory {entries : List (String × Entry)}
      (named : ∀ below ∈ entries, IsName below.1) (distinct : (entries.map (·.1)).Nodup)
      (trees : ∀ below ∈ entries, IsTree below.2) :
      IsTree (.directory entries)

/-- A path leads to a file. -/
inductive HoldsFile : Entry → List String → Prop
  | here (content : List UInt8) : HoldsFile (.file content) []
  | inside {entries : List (String × Entry)} {name : String} {entry : Entry} {path : List String}
      (member : (name, entry) ∈ entries) (holds : HoldsFile entry path) :
      HoldsFile (.directory entries) (name :: path)

end Entry

/-- A stem, a period, and SQL in any case. -/
def IsQueryName (name : String) : Prop :=
  ∃ stem extension, name.toList = stem ++ '.' :: extension ∧ stem ≠ [] ∧
    Text.sameAsciiCase extension ['s', 'q', 'l'] = true

/-- The path of a query file that is in no directory of build output. -/
structure IsQueryPath (path : List String) : Prop where
  named : ∃ name, path.getLast? = some name ∧ IsQueryName name
  notBuilt : ∀ directory ∈ path.dropLast, directory ≠ "bin" ∧ directory ≠ "obj"

section Extension

variable {name extension : String} {stem : List Char}

theorem split_of_extension? (found : extension? name = some extension) :
    ∃ stem, name.toList = stem ++ '.' :: extension.toList ∧ stem ≠ [] ∧
      '.' ∉ extension.toList := by
  have whole : name.toList.reverse = _ :=
    (List.takeWhile_append_dropWhile (p := (· != '.'))).symm
  unfold extension? at found
  rw [List.span_eq_takeWhile_dropWhile] at found
  dsimp only at found
  split at found
  · cases found
  · cases found
  · rename_i rest notNil notPeriod
    cases found
    obtain ⟨period, stem, begins⟩ := List.exists_cons_of_ne_nil notNil
    have isPeriod : period = '.' := by
      have stops := List.head?_dropWhile_not (· != '.') name.toList.reverse
      simpa [begins] using stops
    rw [isPeriod] at begins
    rw [begins, List.reverse_eq_iff] at whole
    refine ⟨stem.reverse, whole.trans (by simp), ?_, ?_⟩
    · intro nothing
      rw [List.reverse_eq_nil_iff.1 nothing] at begins
      exact notPeriod begins
    · intro member
      rw [String.toList_ofList, List.mem_reverse] at member
      simpa using List.mem_takeWhile_imp member

theorem extension?_of_split (split : name.toList = stem ++ '.' :: extension.toList)
    (some_ : stem ≠ []) (noPeriod : '.' ∉ extension.toList) :
    extension? name = some extension := by
  have inside : ∀ c ∈ extension.toList.reverse, (c != '.') = true := by
    intro c member
    rw [bne_iff_ne]
    rintro rfl
    exact noPeriod (List.mem_reverse.1 member)
  have reversed : name.toList.reverse = extension.toList.reverse ++ '.' :: stem.reverse := by
    rw [split]
    simp
  obtain ⟨c, front, begins⟩ := List.exists_cons_of_ne_nil (List.reverse_ne_nil_iff.2 some_)
  unfold extension?
  rw [List.span_eq_takeWhile_dropWhile, reversed, List.takeWhile_append_of_pos inside,
    List.dropWhile_append_of_pos inside, List.takeWhile_cons_of_neg (by decide),
    List.dropWhile_cons_of_neg (by decide)]
  simp [begins]

/-- An extension is what stands behind the last period, which is not the first character. -/
theorem extension?_eq_some_iff : extension? name = some extension ↔
    ∃ stem, name.toList = stem ++ '.' :: extension.toList ∧ stem ≠ [] ∧
      '.' ∉ extension.toList := by
  constructor
  · exact split_of_extension?
  · rintro ⟨stem, split, some_, noPeriod⟩
    exact extension?_of_split split some_ noPeriod

end Extension

theorem isQueryFile_iff {name : String} : isQueryFile name = true ↔ IsQueryName name := by
  have lower (extension : String) : (extension.toLower == "sql") = true ↔
      Text.sameAsciiCase extension.toList ['s', 'q', 'l'] = true := by
    rw [beq_iff_eq, ← String.toList_inj, Text.sameAsciiCase, beq_iff_eq]
    change (extension.map Char.toLower).toList = _ ↔ _
    rw [String.toList_map]
    rfl
  simp only [isQueryFile, Option.any_eq_true, extension?_eq_some_iff, lower]
  constructor
  · rintro ⟨extension, ⟨stem, split, some_, -⟩, spelled⟩
    exact ⟨stem, extension.toList, split, some_, spelled⟩
  · rintro ⟨stem, extension, split, some_, spelled⟩
    refine ⟨String.ofList extension, ⟨stem, ?_, some_, ?_⟩, ?_⟩
    · rw [String.toList_ofList, split]
    · rw [String.toList_ofList]
      exact Text.not_mem_of_sameAsciiCase spelled (by decide)
    · rw [String.toList_ofList, spelled]

theorem isQueryPath_singleton {name : String} : IsQueryPath [name] ↔ isQueryFile name = true := by
  rw [isQueryFile_iff]
  constructor
  · rintro ⟨⟨_, last, named⟩, -⟩
    cases last
    exact named
  · exact fun named => ⟨⟨name, rfl, named⟩, List.forall_mem_nil _⟩

theorem isQueryPath_cons {name : String} {path : List String} (more : path ≠ []) :
    IsQueryPath (name :: path) ↔ isBuildOutput name = false ∧ IsQueryPath path := by
  have last : (name :: path).getLast? = path.getLast? := List.getLast?_cons_of_ne_nil more
  have others : (name :: path).dropLast = name :: path.dropLast :=
    List.dropLast_cons_of_ne_nil more
  have built : isBuildOutput name = false ↔ name ≠ "bin" ∧ name ≠ "obj" := by
    simp [isBuildOutput]
  rw [built]
  constructor
  · rintro ⟨named, notBuilt⟩
    rw [others, List.forall_mem_cons] at notBuilt
    exact ⟨notBuilt.1, ⟨last ▸ named, notBuilt.2⟩⟩
  · rintro ⟨first, named, notBuilt⟩
    refine ⟨last ▸ named, ?_⟩
    rw [others, List.forall_mem_cons]
    exact ⟨first, notBuilt⟩

namespace Entry

variable {name : String} {entry : Entry} {entries : List (String × Entry)} {path : List String}

theorem not_holdsFile_nil : ¬ (directory []).HoldsFile path := by
  rintro (_ | member)
  cases member

theorem holdsFile_cons : (directory ((name, entry) :: entries)).HoldsFile path ↔
    (∃ rest, path = name :: rest ∧ entry.HoldsFile rest) ∨ (directory entries).HoldsFile path := by
  constructor
  · intro holds
    cases holds with
    | inside member holds =>
        rcases List.mem_cons.1 member with first | later
        · cases first
          exact .inl ⟨_, rfl, holds⟩
        · exact .inr (.inside later holds)
  · rintro (⟨rest, rfl, holds⟩ | holds)
    · exact .inside List.mem_cons_self holds
    · cases holds with
      | inside member holds => exact .inside (List.mem_cons_of_mem _ member) holds

theorem HoldsFile.ne_nil (holds : (directory entries).HoldsFile path) : path ≠ [] := by
  cases holds
  exact List.cons_ne_nil _ _

/-- The walk finds the query files, and nothing else. -/
theorem mem_queryFilesIn : path ∈ queryFilesIn entries ↔
    (directory entries).HoldsFile path ∧ IsQueryPath path := by
  fun_induction queryFilesIn entries generalizing path with
  | case1 => simp [not_holdsFile_nil]
  | case2 name content rest ih =>
      rw [List.mem_append, ih, holdsFile_cons, or_and_right]
      apply or_congr_left
      constructor
      · intro member
        split at member
        · rename_i isFile
          rw [List.mem_singleton.1 member]
          exact ⟨⟨[], rfl, .here content⟩, isQueryPath_singleton.2 isFile⟩
        · cases member
      · rintro ⟨⟨inner, rfl, holds⟩, isPath⟩
        cases holds
        rw [if_pos (isQueryPath_singleton.1 isPath)]
        exact List.mem_singleton_self _
  | case3 name entries rest ihInside ih =>
      rw [List.mem_append, ih, holdsFile_cons, or_and_right]
      apply or_congr_left
      constructor
      · intro member
        split at member
        · cases member
        · rename_i notBuilt
          obtain ⟨inner, found, rfl⟩ := List.mem_map.1 member
          obtain ⟨holds, isPath⟩ := ihInside.1 found
          exact ⟨⟨inner, rfl, holds⟩,
            (isQueryPath_cons holds.ne_nil).2 ⟨Bool.not_eq_true _ ▸ notBuilt, isPath⟩⟩
      · rintro ⟨⟨inner, rfl, holds⟩, isPath⟩
        obtain ⟨notBuilt, isPath⟩ := (isQueryPath_cons holds.ne_nil).1 isPath
        rw [notBuilt]
        exact List.mem_map_of_mem (ihInside.2 ⟨holds, isPath⟩)

theorem isTree_cons (tree : (directory ((name, entry) :: entries)).IsTree) :
    entry.IsTree ∧ name ∉ entries.map (·.1) ∧ (directory entries).IsTree := by
  cases tree with
  | directory named distinct trees =>
      obtain ⟨apart, distinct⟩ := List.nodup_cons.1 distinct
      obtain ⟨own, trees⟩ := List.forall_mem_cons.1 trees
      exact ⟨own, apart, .directory (List.forall_mem_cons.1 named).2 distinct trees⟩

theorem head?_of_mem (member : path ∈ queryFilesIn entries) :
    ∃ name ∈ entries.map (·.1), path.head? = some name := by
  cases (mem_queryFilesIn.1 member).1 with
  | inside among _ => exact ⟨_, List.mem_map_of_mem among, rfl⟩

/-- What is found in one entry of a directory is not found in the others. -/
theorem nodup_append_queryFilesIn {front : List (List String)} (own : front.Nodup)
    (heads : ∀ path ∈ front, path.head? = some name) (apart : name ∉ entries.map (·.1))
    (others : (queryFilesIn entries).Nodup) : (front ++ queryFilesIn entries).Nodup := by
  rw [List.nodup_append]
  refine ⟨own, others, ?_⟩
  rintro path first _ later rfl
  obtain ⟨other, among, head⟩ := head?_of_mem later
  rw [heads path first] at head
  cases head
  exact apart among

theorem nodup_queryFilesIn (tree : (directory entries).IsTree) : (queryFilesIn entries).Nodup := by
  fun_induction queryFilesIn entries with
  | case1 => exact List.nodup_nil
  | case2 name content rest ih =>
      obtain ⟨-, apart, others⟩ := isTree_cons tree
      apply nodup_append_queryFilesIn _ _ apart (ih others)
      · split
        · exact List.nodup_singleton _
        · exact List.nodup_nil
      · split
        · exact List.forall_mem_singleton.2 rfl
        · exact List.forall_mem_nil _
  | case3 name entries rest ihInside ih =>
      obtain ⟨inside, apart, others⟩ := isTree_cons tree
      apply nodup_append_queryFilesIn _ _ apart (ih others)
      · split
        · exact List.nodup_nil
        · exact (ihInside inside).map List.cons_injective
      · split
        · exact List.forall_mem_nil _
        · exact List.forall_mem_map.2 fun _ _ => rfl

theorem IsTree.named_of_holdsFile (tree : entry.IsTree) (holds : entry.HoldsFile path) :
    ∀ name ∈ path, IsName name := by
  induction holds with
  | here => exact List.forall_mem_nil _
  | inside member holds ih =>
      cases tree with
      | directory named distinct trees =>
          exact List.forall_mem_cons.2 ⟨named _ member, ih (trees _ member)⟩

end Entry

/-! The order of paths. -/

theorem comesBefore_iff {a b : String} : comesBefore a b = true ↔ a < b := by
  rw [comesBefore, List.lex_eq_true_iff_lt, String.lt_iff_toList_lt]

theorem lex_comesBefore {a b : List String} : List.lex a b comesBefore = true ↔ a < b := by
  rw [List.lex_eq_true_iff_lex]
  simp only [comesBefore_iff]
  exact (List.lt_iff_lex_lt a b).symm

theorem sortPaths_sorted (paths : List (List String)) : (sortPaths paths).Pairwise (· ≤ ·) := by
  have le (a b : List String) : (!List.lex b a comesBefore) = true ↔ a ≤ b := by
    rw [Bool.not_eq_true', ← Bool.not_eq_true, lex_comesBefore, not_lt]
  have sorted : (sortPaths paths).Pairwise fun a b => (!List.lex b a comesBefore) = true := by
    apply List.pairwise_mergeSort
    · intro a b c
      simp only [le]
      exact le_trans
    · intro a b
      simp only [Bool.or_eq_true, le]
      exact le_total a b
  exact sorted.imp (le _ _).1

/-! Paths by their parts. -/

/-- The parts of a path between its slashes. -/
def components (path : String) : List String :=
  ((path.toList.splitOn '/').filter (· ≠ [])).map String.ofList

@[simp] theorem components_empty : components "" = [] := rfl

theorem components_slash (a b : String) :
    components (a ++ "/" ++ b) = components a ++ components b := by
  have split : (a ++ "/" ++ b).toList = a.toList ++ '/' :: b.toList := by simp
  rw [components, split, List.splitOn_append_cons_self, List.filter_append, List.map_append]
  rfl

theorem components_intercalate {path : List String} (named : ∀ name ∈ path, IsName name) :
    components ("/".intercalate path) = path := by
  cases path with
  | nil => rfl
  | cons name path =>
      have apart : ∀ part ∈ (name :: path).map String.toList, '/' ∉ part :=
        List.forall_mem_map.2 fun name member => (named name member).2
      have inked : ∀ part ∈ (name :: path).map String.toList, decide (part ≠ []) = true :=
        List.forall_mem_map.2 fun name member => by simpa using (named name member).1
      rw [components, String.toList_intercalate]
      change (List.filter _ (List.splitOn '/' (List.intercalate ['/'] _))).map _ = _
      rw [List.splitOn_intercalate _ apart (List.cons_ne_nil _ _), List.filter_eq_self.2 inked]
      simp

theorem exists_of_endsWith {path : String} (ends : path.endsWith "/" = true) :
    ∃ front, path = front ++ "/" := by
  rw [String.endsWith_eq_endsWith_toSlice, String.Slice.endsWith_string_iff,
    String.copy_toSlice] at ends
  obtain ⟨front, whole⟩ := ends
  refine ⟨String.ofList front, ?_⟩
  rw [← String.toList_inj, ← whole, String.toList_append, String.toList_ofList (l := front)]

/-- A path below another has the parts of both. -/
theorem components_join (root : String) {path : List String}
    (named : ∀ name ∈ path, IsName name) :
    components (join root path) = components root ++ path := by
  unfold join
  split
  · rename_i ends
    obtain ⟨front, rfl⟩ := exists_of_endsWith ends
    have closed := components_slash front ""
    rw [String.append_empty, components_empty, List.append_nil] at closed
    rw [String.append_empty, components_slash, components_intercalate named, closed]
  · rw [components_slash, components_intercalate named]

/-- A file is found for itself. Below a directory the query files are found, each of them once and
nothing else, in the order of the parts of their paths. -/
theorem discover_exact (files : FileSystem) (root : String) :
    (∀ content, files root = some (.file content) → discover files root = [root]) ∧
    ∀ entries, files root = some (.directory entries) → (Entry.directory entries).IsTree →
      (∀ found, found ∈ discover files root ↔ ∃ path,
        (Entry.directory entries).HoldsFile path ∧ IsQueryPath path ∧ found = join root path) ∧
      (discover files root).Nodup ∧
      (discover files root).Pairwise fun a b => components a < components b := by
  constructor
  · intro content isFile
    rw [discover, isFile]
  · intro entries isDirectory tree
    have found : discover files root =
        (sortPaths (Entry.queryFilesIn entries)).map (join root) := by
      rw [discover, isDirectory]
      rfl
    have perm : (sortPaths (Entry.queryFilesIn entries)).Perm (Entry.queryFilesIn entries) :=
      List.mergeSort_perm _ _
    have nodup := perm.nodup_iff.2 (Entry.nodup_queryFilesIn tree)
    have named {path : List String} (member : path ∈ sortPaths (Entry.queryFilesIn entries)) :=
      tree.named_of_holdsFile (Entry.mem_queryFilesIn.1 (perm.mem_iff.1 member)).1
    have ordered : (discover files root).Pairwise fun a b => components a < components b := by
      rw [found, List.pairwise_map]
      refine ((sortPaths_sorted _).and nodup).imp_of_mem ?_
      rintro a b memberA memberB ⟨le, ne⟩
      rw [components_join root (named memberA), components_join root (named memberB)]
      exact List.append_left_lt (lt_of_le_of_ne le ne)
    refine ⟨fun path => ?_, ordered.imp ?_, ordered⟩
    · simp only [found, List.mem_map, perm.mem_iff, Entry.mem_queryFilesIn, and_assoc, eq_comm]
    · rintro a _ before rfl
      exact lt_irrefl _ before

/-- A file, and another one in a directory of build output. -/
def halfBuilt : List (String × Entry) :=
  [("a.sql", .file []), ("bin", .directory [("b.sql", .file [])])]

/-- The directory at the root may have the name of one of build output. -/
theorem discover_exact_bin :
    "bin/a.sql" ∈ discover (fun _ => some (.directory halfBuilt)) "bin" ∧
      "bin/bin/b.sql" ∉ discover (fun _ => some (.directory halfBuilt)) "bin" := by
  have below : (Entry.directory [("b.sql", .file [])]).IsTree :=
    .directory (by decide) (by decide) (List.forall_mem_singleton.2 (.file []))
  have tree : (Entry.directory halfBuilt).IsTree :=
    .directory (by decide) (by decide)
      (List.forall_mem_cons.2 ⟨.file [], List.forall_mem_singleton.2 below⟩)
  obtain ⟨found, -⟩ :=
    (discover_exact (fun _ => some (.directory halfBuilt)) "bin").2 halfBuilt rfl tree
  constructor
  · have isPath : IsQueryPath ["a.sql"] :=
      ⟨⟨"a.sql", rfl, ['a'], ['s', 'q', 'l'], by decide, by decide, by decide⟩, by decide⟩
    have joined : "bin/a.sql" = join "bin" ["a.sql"] := by
      decide +kernel
    exact (found _).2 ⟨["a.sql"], .inside List.mem_cons_self (.here []), isPath, joined⟩
  · intro member
    obtain ⟨path, holds, isPath, same⟩ := (found _).1 member
    have parts := components_join "bin" (tree.named_of_holdsFile holds)
    rw [← same] at parts
    have shape : components "bin/bin/b.sql" = components "bin" ++ ["bin", "b.sql"] := by decide
    rw [List.append_cancel_left (parts.symm.trans shape)] at isPath
    exact (isPath.notBuilt "bin" List.mem_cons_self).1 rfl

-- What is in a directory comes before a file whose name goes on, unlike in the order of texts.
example : components "bin/a/b.sql" < components "bin/a.sql" ∧ "bin/a.sql" < "bin/a/b.sql" := by
  decide

end QueryNames.Files
