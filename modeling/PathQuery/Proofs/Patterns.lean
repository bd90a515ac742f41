/-
This file says when the directories of the readers are found. The patterns of a configuration are
validated as they are written, but they are expanded with the directory of its file before them,
piece by piece. A configuration without complaints therefore expands exactly where no bracket in a
pattern holds a stroke and, if a pattern starts from that directory, the directory itself can be
read as such a pattern. What goes wrong otherwise is always that a pattern is refused.
-/

import PathQuery.Config.Load
import PathQuery.Proofs.Strokes

namespace PathQuery

/-! ### Pieces of a path -/

namespace File.Path

theorem isAbsolute_iff {path : String} :
    isAbsolute path = true ↔ ∃ rest, path.toList = '/' :: rest := by
  rw [isAbsolute, String.startsWith_string_iff]
  constructor
  · rintro ⟨rest, same⟩
    exact ⟨rest, same.symm⟩
  · rintro ⟨rest, same⟩
    exact ⟨rest, same.symm⟩

theorem endsWith_stroke_iff {path : String} :
    path.endsWith "/" = true ↔ ∃ before, path.toList = before ++ ['/'] := by
  rw [String.endsWith_eq_endsWith_toSlice, String.Slice.endsWith_string_iff, String.copy_toSlice]
  constructor
  · rintro ⟨before, same⟩
    exact ⟨before, same.symm⟩
  · rintro ⟨before, same⟩
    exact ⟨before, same.symm⟩

/-- All pieces of a path are so where those before and after one of its strokes are. -/
theorem forall_pieces_append {holds : String → Prop} {path : String} (before after : String)
    (whole : path.toList = before.toList ++ '/' :: after.toList) :
    (∀ piece ∈ pieces path, holds piece) ↔
      (∀ piece ∈ pieces before, holds piece) ∧ ∀ piece ∈ pieces after, holds piece := by
  rw [pieces, Text.split, whole, Text.pieces_append_mark, List.map_append]
  exact List.forall_mem_append

theorem forall_pieces_empty {holds : String → Prop} (empty : holds "") :
    ∀ piece ∈ pieces "", holds piece :=
  List.forall_mem_singleton.mpr empty

/-- The pieces of a joined path are those of the path and, unless it starts at the root, those of
what it is joined to. -/
theorem forall_pieces_join {holds : String → Prop} (empty : holds "") (base path : String) :
    (∀ piece ∈ pieces (join base path), holds piece) ↔
      (isAbsolute path = false → ∀ piece ∈ pieces base, holds piece) ∧
        ∀ piece ∈ pieces path, holds piece := by
  rw [join]
  split
  · next alone =>
    rcases Bool.or_eq_true_iff.mp alone with absolute | blank
    · rw [absolute]
      exact (and_iff_right fun relative => absurd relative (Bool.false_ne_true ∘ Eq.symm)).symm
    · obtain rfl : base = "" := String.isEmpty_iff.mp blank
      exact (and_iff_right fun _ => forall_pieces_empty empty).symm
  · next further =>
    have relative : isAbsolute path = false := Bool.eq_false_iff.mpr fun absolute =>
      further (Bool.or_eq_true_iff.mpr (.inl absolute))
    rw [relative, forall_prop_of_true rfl]
    split
    · next closed =>
      obtain ⟨before, same⟩ := endsWith_stroke_iff.mp closed
      have without : (∀ piece ∈ pieces base, holds piece) ↔
          ∀ piece ∈ pieces (String.ofList before), holds piece := by
        rw [forall_pieces_append (String.ofList before) "" (by simpa using same)]
        exact and_iff_left (forall_pieces_empty empty)
      rw [without]
      exact forall_pieces_append (String.ofList before) path (by simp [same])
    · exact forall_pieces_append base path (by simp)

end File.Path

namespace Glob

/-! ### Paths of a pattern -/

/-- The pieces by which a pattern is expanded are those between its strokes, apart from empty
ones. -/
theorem forall_pieces_iff {holds : String → Prop} (empty : holds "") (written : String) :
    (∀ piece ∈ pieces written, holds piece) ↔
      ∀ piece ∈ File.Path.pieces written, holds piece := by
  have afterRoot : (∀ piece ∈ Text.split '/' (String.ofList
      (if File.Path.isAbsolute written then written.toList.drop 1 else written.toList)),
        holds piece) ↔ ∀ piece ∈ File.Path.pieces written, holds piece := by
    split
    · next absolute =>
      obtain ⟨rest, same⟩ := File.Path.isAbsolute_iff.mp absolute
      rw [same, List.drop_one, List.tail_cons,
        File.Path.forall_pieces_append "" (String.ofList rest) (by simpa using same)]
      exact (and_iff_right (File.Path.forall_pieces_empty empty)).symm
    · rw [String.ofList_toList]
      rfl
  rw [← afterRoot]
  unfold pieces
  dsimp only
  generalize Text.split '/' (String.ofList _) = cut
  split
  · next closed =>
    obtain ⟨-, last⟩ := Bool.and_eq_true_iff.mp closed
    have whole := List.dropLast_append_getLast? "" (beq_iff_eq.mp last)
    rw [← whole, List.dropLast_concat, List.forall_mem_append, List.forall_mem_singleton]
    exact (and_iff_left empty).symm
  · rfl

/-- A pattern is expanded exactly where it can be read and no bracket in it holds a stroke. -/
theorem paths_ok_iff (files : Files) (written : String) :
    (∃ found, paths files written = .ok found) ↔
      ∃ signs, Pattern.ofText written = .ok signs ∧ signs.holdsStroke = false := by
  have among : (∀ piece ∈ pieces written, ∃ signs, Pattern.ofText piece = .ok signs) ↔
      ∀ piece ∈ File.Path.pieces written, ∃ signs, Pattern.ofText piece = .ok signs :=
    forall_pieces_iff ⟨[], Pattern.ofText_empty⟩ written
  rw [← Pattern.pieces_readable_iff, paths]
  constructor
  · rintro ⟨found, done⟩
    obtain ⟨_, -, done⟩ := bind_eq_ok.mp done
    obtain ⟨patterns, each, -⟩ := bind_eq_ok.mp done
    exact among.mp (mapM_ok_iff.mp ⟨patterns, each⟩)
  · intro all
    obtain ⟨signs, whole, -⟩ := Pattern.pieces_readable_iff.mp all
    obtain ⟨patterns, each⟩ := mapM_ok_iff.mpr (among.mpr all)
    exact ⟨_, bind_eq_ok.mpr ⟨signs, whole, bind_eq_ok.mpr ⟨patterns, each, rfl⟩⟩⟩

end Glob

namespace Config

/-! ### Valid configurations -/

/-- The patterns of a configuration without complaints can be read. -/
theorem readable_of_valid {config : Config} (valid : config.complaints = []) {pattern : String}
    (given : pattern ∈ config.readers) : ∃ signs, Glob.Pattern.ofText pattern = .ok signs := by
  obtain ⟨index, place⟩ := List.mem_iff_getElem?.mp given
  rw [complaints, List.append_eq_nil_iff, List.filterMap_eq_nil_iff] at valid
  have fine : patternComplaint? pattern index = none :=
    valid.2 (pattern, index) (List.mem_zipIdx_iff_getElem?.mpr place)
  rw [patternComplaint?] at fine
  split at fine
  · cases fine
  · split at fine
    · next signs readable => exact ⟨signs, readable⟩
    · cases fine

/-- The directories that a pattern matches are found exactly where the pieces of the joined path are
patterns. -/
theorem directoriesOf_ok_iff (files : Files) (base pattern : String) :
    (∃ found, directoriesOf files base pattern = .ok found) ↔
      (File.Path.isAbsolute pattern = false → ∀ piece ∈ File.Path.pieces base,
        ∃ signs, Glob.Pattern.ofText piece = .ok signs) ∧
      ∃ signs, Glob.Pattern.ofText pattern = .ok signs ∧ signs.holdsStroke = false := by
  rw [← Glob.Pattern.pieces_readable_iff, ← File.Path.pieces,
    ← File.Path.forall_pieces_join ⟨[], Glob.Pattern.ofText_empty⟩, File.Path.pieces,
    Glob.Pattern.pieces_readable_iff, ← Glob.paths_ok_iff files, directoriesOf]
  cases Glob.paths files (File.Path.join base pattern) with
  | error fault =>
    constructor
    · rintro ⟨_, same⟩
      cases same
    · rintro ⟨_, same⟩
      cases same
  | ok paths => exact ⟨fun _ => ⟨paths, rfl⟩, fun _ => ⟨_, rfl⟩⟩

/-- Where a pattern has no directories, it is refused itself. -/
theorem bad_of_directoriesOf {files : Files} {base pattern : String} {error : Error}
    (failed : directoriesOf files base pattern = .error error) :
    ∃ fault, error = .badPattern pattern fault := by
  rw [directoriesOf] at failed
  split at failed
  · next fault _ =>
    cases failed
    exact ⟨fault, rfl⟩
  · cases failed

/-- The directories of the readers are found exactly where those of every pattern are. -/
theorem readerDirectories_ok_iff (files : Files) (base : String) (patterns : List String) :
    (∃ directories, readerDirectories files base patterns = .ok directories) ↔
      ∀ pattern ∈ patterns, ∃ found, directoriesOf files base pattern = .ok found := by
  rw [← mapM_ok_iff, readerDirectories]
  constructor
  · rintro ⟨directories, done⟩
    obtain ⟨found, each, -⟩ := bind_eq_ok.mp done
    exact ⟨found, each⟩
  · rintro ⟨found, each⟩
    exact ⟨_, bind_eq_ok.mpr ⟨found, each, rfl⟩⟩

/-- A configuration without complaints expands exactly where no bracket in its patterns holds a
stroke and, if a pattern starts from the directory of its file, every piece of that directory is a
pattern too. Otherwise one of the patterns is refused. -/
theorem valid_patterns_expand_exactly (files : Files) (base : String) {config : Config}
    (valid : config.complaints = []) :
    ((∃ directories, readerDirectories files base config.readers = .ok directories) ↔
      (∀ pattern ∈ config.readers, ∀ signs, Glob.Pattern.ofText pattern = .ok signs →
        signs.holdsStroke = false) ∧
      ((∃ pattern ∈ config.readers, File.Path.isAbsolute pattern = false) →
        ∀ piece ∈ File.Path.pieces base, ∃ signs, Glob.Pattern.ofText piece = .ok signs)) ∧
    ∀ error, readerDirectories files base config.readers = .error error →
      ∃ pattern ∈ config.readers, ∃ fault, error = .badPattern pattern fault := by
  refine ⟨?_, fun error failed => ?_⟩
  · rw [readerDirectories_ok_iff]
    constructor
    · intro all
      refine ⟨fun pattern given signs readable => ?_, fun ⟨pattern, given, relative⟩ => ?_⟩
      · obtain ⟨-, others, same, cuttable⟩ := (directoriesOf_ok_iff files base pattern).mp
          (all pattern given)
        cases same.symm.trans readable
        exact cuttable
      · exact ((directoriesOf_ok_iff files base pattern).mp (all pattern given)).1 relative
    · rintro ⟨cuttable, relative⟩ pattern given
      obtain ⟨signs, readable⟩ := readable_of_valid valid given
      exact (directoriesOf_ok_iff files base pattern).mpr ⟨fun starts =>
        relative ⟨pattern, given, starts⟩, signs, readable, cuttable pattern given signs readable⟩
  · rw [readerDirectories, bind_eq_error] at failed
    obtain failed | ⟨found, -, done⟩ := failed
    · rcases mapM_outcome (directoriesOf files base) config.readers with
        ⟨found, done⟩ | ⟨pattern, given, other, refused, stopped⟩
      · cases done.symm.trans failed
      · cases stopped.symm.trans failed
        obtain ⟨fault, same⟩ := bad_of_directoriesOf refused
        exact ⟨pattern, given, fault, same⟩
    · cases done

/-- A configuration with a pattern that starts at the directory of its file and one that starts at
the root. -/
def mixed : Config := ⟨["readers/*", "/lib/**/[!a-c]?"], 4, .normal, .yaml⟩

/-- Beside a file in a directory whose name has a bracket that is closed, the mixed configuration
expands. -/
theorem valid_patterns_expand_exactly_mixed : mixed.complaints = [] ∧
    ∃ directories, readerDirectories (Files.ofName "work") "conf[1]" mixed.readers =
      .ok directories := by
  have valid : mixed.complaints = [] := by decide +kernel
  have plain : ∀ pattern ∈ mixed.readers,
      (Glob.Pattern.ofText pattern).map Glob.Pattern.holdsStroke = .ok false := by decide +kernel
  have whole : ∀ piece ∈ File.Path.pieces "conf[1]",
      (Glob.Pattern.ofText piece).toOption.isSome = true := by decide +kernel
  refine ⟨valid, (valid_patterns_expand_exactly _ _ valid).1.mpr ⟨?_, fun _ piece given => ?_⟩⟩
  · intro pattern given signs readable
    have same := plain pattern given
    rw [readable] at same
    exact Except.ok.inj same
  · obtain ⟨signs, found⟩ := Option.isSome_iff_exists.mp (whole piece given)
    exact ⟨signs, ok_of_toOption found⟩

/-- An open bracket in the name of the directory of the file, and a stroke in brackets, meet no
complaint, but both end in a pattern that is refused. -/
theorem valid_patterns_refused :
    (Config.mk ["r/*"] 10 .normal .yaml).complaints = [] ∧
    readerDirectories (Files.ofName "work") "a[" ["r/*"] =
      .error (.badPattern "r/*" (.range 1)) ∧
    (Config.mk ["a[/]b"] 10 .normal .yaml).complaints = [] ∧
    readerDirectories (Files.ofName "work") "." ["a[/]b"] =
      .error (.badPattern "a[/]b" (.range 1)) := by
  have openBracket : Glob.paths (Files.ofName "work") (File.Path.join "a[" "r/*") =
      .error (.range 1) := by decide +kernel
  have cutBracket : Glob.paths (Files.ofName "work") (File.Path.join "." "a[/]b") =
      .error (.range 1) := by decide +kernel
  refine ⟨by decide +kernel, ?_, by decide +kernel, ?_⟩
  · rw [readerDirectories, List.mapM_cons, directoriesOf, openBracket]
    rfl
  · rw [readerDirectories, List.mapM_cons, directoriesOf, cutBracket]
    rfl

end Config

end PathQuery
