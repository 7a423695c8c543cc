import SchemaTypes.Files.Tree

/-! # Writing files

What writing a file does to a `FileTree`. A write that succeeds either sets the file under the
names its path leads to, which must not be a directory, or leads somewhere above the tree and
changes nothing (`write_cases`). Either way every directory stays a directory (`Widens`), so
every path that could be followed before leads to the same place after (`locate_of_widens`),
and a file under other names keeps its text (`write_keeps_file`). What a path holds after
writes is stated as `Holds`: the path reads as the text, or leads above the tree, where
nothing is known.

Paths into a directory are told apart by their last name. A file name has no slash and is none
of the empty name, `.` and `..` (`fileName?_normal`); joined onto a directory it becomes the
last step of the path, after steps that depend on the directory alone (`locate_join`). So two
different file names in one directory lead to two different places (`join_places_differ`).
-/

namespace SchemaTypes.Files

/-! ## Names between slashes -/

theorem slash_not_mem_of_mem_splitOn :
    ∀ {xs piece : List Char}, piece ∈ xs.splitOn '/' → '/' ∉ piece
  | [], piece, member => by simp_all
  | x :: xs, piece, member => by
    rw [List.splitOn_cons_eq_if_modifyHead] at member
    split at member
    · rcases List.mem_cons.mp member with rfl | later
      · simp
      · exact slash_not_mem_of_mem_splitOn later
    · next other =>
      obtain ⟨first, rest, split⟩ := List.exists_cons_of_ne_nil (List.splitOn_ne_nil '/' xs)
      rw [split] at member
      simp only [List.modifyHead_cons, List.mem_cons] at member
      rcases member with rfl | later
      · have : '/' ∉ first := slash_not_mem_of_mem_splitOn (split ▸ List.mem_cons_self)
        simp only [List.mem_cons, not_or]
        exact ⟨fun same => other (by simp [← same]), this⟩
      · exact slash_not_mem_of_mem_splitOn (split ▸ List.mem_cons_of_mem _ later)

/-- Text without a slash extends the last of the pieces it is appended to. -/
theorem splitOn_append_of_slash_not_mem {ys : List Char} (noSlash : '/' ∉ ys) :
    ∀ xs : List Char, ∃ ns l, xs.splitOn '/' = ns ++ [l] ∧ (xs ++ ys).splitOn '/' = ns ++ [l ++ ys]
  | [] => ⟨[], [], by simp, by simpa using List.splitOn_eq_singleton noSlash⟩
  | x :: xs => by
    obtain ⟨ns, l, pieces, appended⟩ := splitOn_append_of_slash_not_mem noSlash xs
    rw [List.cons_append, List.splitOn_cons_eq_if_modifyHead, List.splitOn_cons_eq_if_modifyHead,
      pieces, appended]
    split
    · exact ⟨[] :: ns, l, rfl, rfl⟩
    · cases ns with
      | nil => exact ⟨[], x :: l, rfl, rfl⟩
      | cons n ns => exact ⟨(x :: n) :: ns, l, rfl, rfl⟩

theorem slashNames_append {a b : String} (noSlash : '/' ∉ b.toList) :
    ∃ ns l, slashNames a = ns ++ [l] ∧ slashNames (a ++ b) = ns ++ [l ++ b] := by
  obtain ⟨ns, l, pieces, appended⟩ := splitOn_append_of_slash_not_mem noSlash a.toList
  refine ⟨ns.map String.ofList, String.ofList l, ?_, ?_⟩
  · simp [slashNames, pieces]
  · simp [slashNames, String.toList_append, appended, String.ofList_append]

theorem slash_not_mem_of_mem_slashNames {path name : String} (member : name ∈ slashNames path) :
    '/' ∉ name.toList := by
  obtain ⟨piece, listed, rfl⟩ := List.mem_map.mp member
  simpa using slash_not_mem_of_mem_splitOn listed

/-! ## File names -/

/-- A name that is a step down: not empty, not `.` and not `..`. -/
def Downward (name : String) : Prop := name ≠ "" ∧ name ≠ "." ∧ name ≠ ".."

theorem mem_of_normal_mem_ofNames {names : List String} {name : String}
    (member : PathPart.normal name ∈ PathPart.ofNames names) : name ∈ names ∧ Downward name := by
  obtain ⟨s, listed, made⟩ := List.mem_filterMap.mp member
  by_cases skipped : s = "" ∨ s = "."
  · simp [skipped] at made
  · by_cases up : s = ".."
    · simp [up] at made
    · simp only [skipped, up, if_false, Option.some.injEq, PathPart.normal.injEq] at made
      subst made
      simp only [not_or] at skipped
      exact ⟨listed, skipped.1, skipped.2, up⟩

/-- A file name is one of the path's names, a step down without a slash. -/
theorem fileName?_normal {path name : String} (named : PathPart.fileName? path = some name) :
    Downward name ∧ '/' ∉ name.toList := by
  unfold PathPart.fileName? at named
  split at named
  · next last found =>
    cases named
    have member := List.mem_of_getLast? found
    unfold PathPart.parts at member
    split at member
    · simp at member
    · split at member
      · next rest split =>
        rcases List.mem_cons.mp member with wrong | member
        · cases wrong
        obtain ⟨listed, down⟩ := mem_of_normal_mem_ofNames member
        exact ⟨down, slash_not_mem_of_mem_slashNames (split ▸ List.mem_cons_of_mem _ listed)⟩
      · next rest split =>
        rcases List.mem_cons.mp member with wrong | member
        · cases wrong
        obtain ⟨listed, down⟩ := mem_of_normal_mem_ofNames member
        exact ⟨down, slash_not_mem_of_mem_slashNames (split ▸ List.mem_cons_of_mem _ listed)⟩
      · obtain ⟨listed, down⟩ := mem_of_normal_mem_ofNames member
        exact ⟨down, slash_not_mem_of_mem_slashNames listed⟩
  · cases named

/-- What joining puts between a base and a relative path: nothing after an empty base or a
final slash, else one slash. -/
def PathPart.separator (base : String) : String :=
  if base.isEmpty || base.toList.getLast? = some '/' then "" else "/"

theorem PathPart.join_relative {base path : String} (relative : path.toList.head? ≠ some '/') :
    PathPart.join base path = base ++ PathPart.separator base ++ path := by
  unfold PathPart.join PathPart.separator
  rw [if_neg relative]
  split <;> simp [String.append_assoc]

/-! ## Steps into a directory -/

namespace FileTree

variable {t t' : FileTree}

/-- A step with a downward name leads inside only from inside, one name deeper. -/
theorem step_downward {pl : Place} {name : String} {w : List String} (down : Downward name)
    (stepped : t.step pl name = .ok (.inside w)) :
    ∃ names, pl = .inside names ∧ w = names ++ [name] := by
  obtain ⟨nonempty, notHere, notUp⟩ := down
  cases pl with
  | inside names =>
    simp only [step, nonempty, notHere, notUp, or_self, if_false] at stepped
    split at stepped
    · simp at stepped
    · simp at stepped
    · simp only [Except.ok.injEq, Place.inside.injEq] at stepped
      exact ⟨names, rfl, stepped.symm⟩
  | ancestor => simp [step, nonempty, notHere, notUp] at stepped
  | afar => simp [step] at stepped

/-- A name with a downward name at its end is downward too. -/
theorem downward_append {lead name : String} (down : Downward name) : Downward (lead ++ name) := by
  obtain ⟨nonempty, notHere, notUp⟩ := down
  have filled : name.toList ≠ [] := fun empty => nonempty (String.toList_inj.mp empty)
  refine ⟨fun same => ?_, fun same => ?_, fun same => ?_⟩ <;>
    have listed := congrArg String.toList same <;> rw [String.toList_append] at listed
  · exact filled (List.append_eq_nil_iff.mp listed).2
  · rcases List.append_eq_singleton_iff.mp listed with ⟨-, only⟩ | ⟨-, empty⟩
    · exact notHere (String.toList_inj.mp only)
    · exact filled empty
  · rcases List.append_eq_cons_iff.mp listed with ⟨-, whole⟩ | ⟨rest, -, tail⟩
    · exact notUp (String.toList_inj.mp whole)
    -- only the last `.` of `..` is left for the name
    · rcases List.append_eq_singleton_iff.mp tail.symm with ⟨-, only⟩ | ⟨-, empty⟩
      · exact notHere (String.toList_inj.mp only)
      · exact filled empty

/-- Where the names of a path before its last one lead: from above the tree after a leading
empty name, else from its top. -/
def approach (t : FileTree) : List String → Except IoFailure Place
  | "" :: rest => rest.foldlM t.step .ancestor
  | names => names.foldlM t.step (.inside [])

theorem locate_eq_approach {path last : String} {names : List String}
    (nonempty : path.isEmpty = false) (split : slashNames path = names ++ [last]) (filled : last ≠ "") :
    t.locate path = t.approach names >>= fun pl => t.step pl last := by
  unfold locate
  rw [if_neg (by simp [nonempty]), split]
  cases names with
  | nil =>
    simp only [List.nil_append, approach]
    split
    · next wrong => exact absurd (List.cons.inj wrong).1 filled
    · simp [List.foldlM_cons, bind_pure]
  | cons first rest =>
    by_cases root : first = ""
    · subst root
      simp [approach, List.foldlM_append, bind_pure]
    · simp only [List.cons_append, approach]
      split
      · next wrong => exact absurd (List.cons.inj wrong).1 root
      · split
        · next wrong => exact absurd (List.cons.inj wrong).1 root
        · simp [List.foldlM_append, bind_pure]

/-- A relative path joined onto a directory is followed as the directory's own steps, then one
last step, made of the path, that is the same for every path. -/
theorem locate_join (base : String) : ∃ (start : Except IoFailure Place) (lead : String),
    ∀ name, Downward name → '/' ∉ name.toList →
      t.locate (PathPart.join base name) = start >>= fun pl => t.step pl (lead ++ name) := by
  obtain ⟨names, lead, pieces, -⟩ :=
    slashNames_append (a := base ++ PathPart.separator base) (b := "") (by simp)
  refine ⟨t.approach names, lead, fun name down noSlash => ?_⟩
  obtain ⟨names', lead', pieces', joined⟩ :=
    slashNames_append (a := base ++ PathPart.separator base) noSlash
  have same : names = names' ∧ lead = lead' := by
    rw [pieces] at pieces'
    simpa using List.append_inj' pieces' rfl
  obtain ⟨rfl, rfl⟩ := same
  have relative : name.toList.head? ≠ some '/' := fun head => noSlash (List.mem_of_mem_head? head)
  have filled : (lead ++ name) ≠ "" := (downward_append down).1
  have nonempty : (base ++ PathPart.separator base ++ name).isEmpty = false := by
    have : name ≠ "" := down.1
    simp_all
  rw [PathPart.join_relative relative]
  exact locate_eq_approach nonempty joined filled

/-- Two different file names joined onto one directory lead to two different places inside
the tree. -/
theorem join_places_differ {base name name' : String} {w : List String}
    (down : Downward name) (noSlash : '/' ∉ name.toList)
    (down' : Downward name') (noSlash' : '/' ∉ name'.toList)
    (here : t.locate (PathPart.join base name) = .ok (.inside w))
    (there : t.locate (PathPart.join base name') = .ok (.inside w)) : name = name' := by
  obtain ⟨start, lead, follows⟩ := locate_join (t := t) base
  rw [follows name down noSlash] at here
  rw [follows name' down' noSlash'] at there
  cases start with
  | error e => exact absurd here (by rintro ⟨⟩)
  | ok pl =>
    have stepped : t.step pl (lead ++ name) = .ok (.inside w) := here
    have stepped' : t.step pl (lead ++ name') = .ok (.inside w) := there
    obtain ⟨names, rfl, last⟩ := step_downward (downward_append down) stepped
    obtain ⟨names', same, last'⟩ := step_downward (downward_append down') stepped'
    cases same
    have := List.append_inj_right' (last.symm.trans last') rfl
    simpa using this

/-! ## What a write leaves -/

theorem mem_paths_setFile {p w : List String} {s : String} (member : p ∈ t.files.map (·.1)) :
    p ∈ (t.setFile w s).files.map (·.1) := by
  unfold setFile
  split
  · obtain ⟨f, present, rfl⟩ := List.mem_map.mp member
    refine List.mem_map.mpr ⟨if f.1 == w then (w, s) else f, List.mem_map_of_mem present, ?_⟩
    split <;> simp_all
  · simpa using Or.inl member

/-- Setting a file in place keeps every file where it was, under its names. -/
theorem find?_map_setFile (files : List (List String × String)) (v w : List String) (s : String) :
    (files.map fun f => if f.1 == w then (w, s) else f).find? (·.1 == v) =
      (files.find? (·.1 == v)).map fun f => if f.1 == w then (w, s) else f := by
  have keys : ((·.1 == v) ∘ fun f : List String × String => if f.1 == w then (w, s) else f) =
      (·.1 == v) := by
    funext f
    by_cases named : f.1 = w <;> simp [named]
  rw [List.find?_map, keys]

theorem fileAt?_setFile_self (w : List String) (s : String) : (t.setFile w s).fileAt? w = some s := by
  unfold setFile fileAt?
  split
  · next present =>
    obtain ⟨f, member, named⟩ := List.any_eq_true.mp present
    rw [find?_map_setFile]
    have some : (t.files.find? (·.1 == w)).isSome := List.find?_isSome.mpr ⟨f, member, named⟩
    obtain ⟨g, found⟩ := Option.isSome_iff_exists.mp some
    have same : g.1 = w := by simpa using List.find?_some found
    simp [found, same]
  · next absent =>
    have none : t.files.find? (·.1 == w) = none :=
      List.find?_eq_none.mpr (List.any_eq_false.mp (Bool.eq_false_iff.mpr absent))
    simp [List.find?_append, none]

theorem fileAt?_setFile_of_ne {v w : List String} (other : v ≠ w) (s : String) :
    (t.setFile w s).fileAt? v = t.fileAt? v := by
  unfold setFile fileAt?
  split
  · rw [find?_map_setFile]
    cases found : t.files.find? (·.1 == v) with
    | none => rfl
    | some g =>
      have same : g.1 = v := by simpa using List.find?_some found
      simp [same, other]
  · rw [List.find?_append]
    cases t.files.find? (·.1 == v) with
    | some g => rfl
    | none => simp [Ne.symm other]

theorem hasDirectory_setFile {v w : List String} {s : String} (dir : t.hasDirectory v = true) :
    (t.setFile w s).hasDirectory v = true := by
  unfold hasDirectory at dir ⊢
  have dirs : (t.setFile w s).dirs = t.dirs := by unfold setFile; split <;> rfl
  rw [dirs]
  simp only [Bool.or_eq_true, List.any_eq_true, List.mem_append] at dir ⊢
  rcases dir with own | ⟨p, member, below⟩
  · exact .inl own
  · refine .inr ⟨p, ?_, below⟩
    rcases member with file | made
    · exact .inl (mem_paths_setFile file)
    · exact .inr made

/-- Every directory of the first tree is a directory of the second. -/
def Widens (t t' : FileTree) : Prop :=
  ∀ names, t.entryAt names = .directory → t'.entryAt names = .directory

theorem Widens.refl (t : FileTree) : Widens t t := fun _ dir => dir

theorem Widens.trans {t₁ t₂ t₃ : FileTree} (first : Widens t₁ t₂) (second : Widens t₂ t₃) :
    Widens t₁ t₃ := fun names dir => second names (first names dir)

theorem entryAt_setFile_of_directory {v w : List String} {s : String}
    (dir : t.entryAt v = .directory) (notDir : t.entryAt w ≠ .directory) :
    (t.setFile w s).entryAt v = .directory := by
  have other : v ≠ w := fun same => notDir (same ▸ dir)
  unfold entryAt at dir ⊢
  rw [fileAt?_setFile_of_ne other]
  cases found : t.fileAt? v with
  | some content => simp [found] at dir
  | none =>
    simp only [found] at dir ⊢
    by_cases below : t.hasDirectory v = true
    · simp [hasDirectory_setFile below]
    · simp [below] at dir

theorem entryAt_setFile_self (w : List String) (s : String) :
    (t.setFile w s).entryAt w = .file s := by
  simp [entryAt, fileAt?_setFile_self]

theorem entryAt_setFile_of_file {v w : List String} {s s' : String} (other : v ≠ w)
    (file : t.entryAt v = .file s') : (t.setFile w s).entryAt v = .file s' := by
  unfold entryAt at file ⊢
  rw [fileAt?_setFile_of_ne other]
  cases found : t.fileAt? v with
  | some content => simpa [found] using file
  | none =>
    simp only [found] at file
    split at file <;> cases file

/-- A write that succeeds sets the file its path leads to, which is no directory, or leads
above the tree and changes nothing. -/
theorem write_cases {path s : String} (wrote : t.write path s = .ok t') :
    (t.locate path = .ok .afar ∧ t' = t) ∨
      ∃ w, t.locate path = .ok (.inside w) ∧ t.entryAt w ≠ .directory ∧ t' = t.setFile w s := by
  unfold write at wrote
  cases located : t.locate path with
  | error e => rw [located] at wrote; cases wrote
  | ok pl =>
    cases pl with
    | inside w =>
      refine .inr ⟨w, rfl, ?_⟩
      simp only [located, bind, Except.bind] at wrote
      split at wrote
      · cases wrote
      · next notDir =>
        cases wrote
        exact ⟨fun dir => notDir dir, rfl⟩
    | ancestor => simp [located, bind, Except.bind] at wrote
    | afar =>
      simp only [located, bind, Except.bind, Except.ok.injEq] at wrote
      exact .inl ⟨rfl, wrote.symm⟩

theorem write_widens {path s : String} (wrote : t.write path s = .ok t') : Widens t t' := by
  rcases write_cases wrote with ⟨-, rfl⟩ | ⟨w, -, notDir, rfl⟩
  · exact Widens.refl _
  · exact fun v dir => entryAt_setFile_of_directory dir notDir

theorem step_of_widens (widens : Widens t t') {pl pl' : Place} {name : String}
    (stepped : t.step pl name = .ok pl') : t'.step pl name = .ok pl' := by
  cases pl with
  | inside names =>
    simp only [step] at stepped ⊢
    cases entry : t.entryAt names with
    | missing => simp [entry] at stepped
    | file content => simp [entry] at stepped
    | directory =>
      rw [entry] at stepped
      rw [widens names entry]
      exact stepped
  | ancestor => exact stepped
  | afar => exact stepped

theorem foldlM_step_of_widens (widens : Widens t t') :
    ∀ (names : List String) (pl pl' : Place),
      names.foldlM t.step pl = .ok pl' → names.foldlM t'.step pl = .ok pl'
  | [], _, _, done => done
  | name :: names, pl, pl', done => by
    rw [List.foldlM_cons] at done ⊢
    cases stepped : t.step pl name with
    | error e => rw [stepped] at done; cases done
    | ok next =>
      rw [stepped] at done
      rw [step_of_widens widens stepped]
      exact foldlM_step_of_widens widens names next pl' done

theorem locate_eq_approach_slashNames (t : FileTree) (path : String) :
    t.locate path = if path.isEmpty then .error .notFound else t.approach (slashNames path) :=
  rfl

theorem approach_of_widens (widens : Widens t t') {names : List String} {pl : Place}
    (reached : t.approach names = .ok pl) : t'.approach names = .ok pl := by
  unfold approach at reached ⊢
  split at reached <;> exact foldlM_step_of_widens widens _ _ _ reached

/-- A path that could be followed leads to the same place in a tree with more directories. -/
theorem locate_of_widens (widens : Widens t t') {path : String} {pl : Place}
    (located : t.locate path = .ok pl) : t'.locate path = .ok pl := by
  rw [locate_eq_approach_slashNames] at located ⊢
  by_cases empty : path.isEmpty = true
  · simp [empty] at located
  · rw [if_neg empty] at located ⊢
    exact approach_of_widens widens located

theorem read_of_file {path s : String} {w : List String} (located : t.locate path = .ok (.inside w))
    (file : t.entryAt w = .file s) : t.read path = .ok s := by
  simp [read, located, file, bind, Except.bind]

/-- A write leaves its text in the file its path leads to. -/
theorem write_reads_back {path s : String} {w : List String} (wrote : t.write path s = .ok t')
    (located : t.locate path = .ok (.inside w)) : t'.entryAt w = .file s := by
  rcases write_cases wrote with ⟨afar, -⟩ | ⟨w', inside, -, rfl⟩
  · rw [located] at afar; cases afar
  · rw [located] at inside
    cases inside
    exact entryAt_setFile_self w s

/-- A write to another place leaves a file as it was. -/
theorem write_keeps_file {path s s' : String} {v : List String} (wrote : t.write path s = .ok t')
    (file : t.entryAt v = .file s') (elsewhere : t.locate path ≠ .ok (.inside v)) :
    t'.entryAt v = .file s' := by
  rcases write_cases wrote with ⟨-, rfl⟩ | ⟨w, inside, -, rfl⟩
  · exact file
  · exact entryAt_setFile_of_file (fun same => elsewhere (same ▸ inside)) file

/-! ## Files that hold a text -/

/-- The file at a path holds a text, as far as the tree can tell: the path reads as the text,
or it leads somewhere unknown above the tree. -/
def Holds (t : FileTree) (path text : String) : Prop :=
  t.read path = .ok text ∨ t.locate path = .ok .afar

/-- At a path the tree knows, one that does not lead above it, a file that holds a text reads as
that text. Only outside the working directory is `Holds` no more than a place. -/
theorem Holds.read_of_known {path text : String} (holds : Holds t path text)
    (known : t.locate path ≠ .ok .afar) : t.read path = .ok text :=
  holds.resolve_right known

theorem read_ok {path s : String} (read : t.read path = .ok s) :
    ∃ v, t.locate path = .ok (.inside v) ∧ t.entryAt v = .file s := by
  unfold FileTree.read at read
  cases located : t.locate path with
  | error e => rw [located] at read; cases read
  | ok pl =>
    cases pl with
    | inside v =>
      simp only [located, bind, Except.bind] at read
      refine ⟨v, rfl, ?_⟩
      cases entry : t.entryAt v with
      | file content =>
        simp only [entry, Except.ok.injEq] at read
        rw [read]
      | directory => simp [entry] at read
      | missing => simp [entry] at read
    | ancestor => simp [located, bind, Except.bind] at read
    | afar => simp [located, bind, Except.bind] at read

theorem write_holds {path s : String} (wrote : t.write path s = .ok t') : Holds t' path s := by
  rcases write_cases wrote with ⟨afar, rfl⟩ | ⟨w, inside, -, rfl⟩
  · exact .inr afar
  · left
    apply read_of_file (locate_of_widens (write_widens wrote) inside)
    exact entryAt_setFile_self w s

/-- A write to a path that leads elsewhere keeps what a file holds. -/
theorem write_keeps_holds {path q s text : String} (wrote : t.write path s = .ok t')
    (holds : Holds t q text)
    (apart : ∀ w, t.locate path = .ok (.inside w) → t.locate q ≠ .ok (.inside w)) :
    Holds t' q text := by
  have widens := write_widens wrote
  rcases holds with read | afar
  · obtain ⟨v, located, file⟩ := read_ok read
    left
    apply read_of_file (locate_of_widens widens located)
    apply write_keeps_file wrote file
    intro same
    exact apart v same located
  · exact .inr (locate_of_widens widens afar)

/-- Writing under one file name in a directory keeps what the file of another name holds. -/
theorem write_join_keeps_holds {dir path path' name name' s text : String}
    (named : PathPart.fileName? path = some name) (named' : PathPart.fileName? path' = some name')
    (other : name ≠ name') (wrote : t.write (PathPart.join dir name') s = .ok t')
    (holds : Holds t (PathPart.join dir name) text) : Holds t' (PathPart.join dir name) text := by
  obtain ⟨down, noSlash⟩ := fileName?_normal named
  obtain ⟨down', noSlash'⟩ := fileName?_normal named'
  apply write_keeps_holds wrote holds
  intro w there here
  exact other (join_places_differ down noSlash down' noSlash' here there)

end FileTree

end SchemaTypes.Files
