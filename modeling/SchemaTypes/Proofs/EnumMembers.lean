import SchemaTypes.Proofs.CastIdempotence

/-! # The members of an enumeration

An enumeration reads the entries of its `enum` list one by one. Each entry gives a member: a
record `{"Id": .., "Description": ..}` its `Id`, any other literal itself as its id and its
literal. Members are kept by member name, the id in capitals, so an entry replaces the member
of an earlier entry whose id has the same member name: `["ab", "AB"]` keeps only `AB`
(`colliding_ids_lose_member`).

What a reading gives is still a closed set of members with distinct ids, each found by its id
(`enum_members_found`). An entry whose member no later entry replaces is cast, from its id, from
a map of that `Id` or from the literal itself, to the member of that id; and a member is found
again from its plain form. Literals that a lookup does not read as an id (doubles, lists and
integers beyond 64 bits) are left out of both: they are read as members, but an enumeration of
a double refuses that double (`double_entry_refused`).
-/

namespace SchemaTypes

namespace EnumType

/-- The member name of an id: its words in capitals. -/
def memberName (id : String) : String := (Naming.pascalToScreamingSnake id {}).1

/-- The id an entry of `enum` is read with: the `Id` of a record, or the text of a literal;
`null` is no entry. -/
def entryId : Json → Option String
  | .null => none
  | .obj entry => (Json.lookup entry "Id").map literalId
  | raw => some (literalId raw)

/-- Whether a literal reads back as an id: a string, a boolean, or an integer of 64 bits. -/
def isScalarLiteral : Json → Bool
  | .str _ | .bool _ => true
  | .int n => Value.fitsInt n
  | _ => false

/-- The forms in which data names the entry `raw` of id `x`: the id as a string, a map of that
`Id`, and the literal itself when it reads back as the id. -/
def rawForms (raw : Json) (x : String) : List Value :=
  .str x :: .map [("Id", .str x)] :: (if isScalarLiteral raw then [Value.ofJson raw] else [])

/-- Special names that keep every member name as it is. -/
def StableNames (special : SpecialNames) : Prop :=
  ∀ x ∈ special.names, memberName x = x

/-- A member as an enumeration named `enumName` reads it: named by its id, and with the id of
its literal when it has one. -/
structure WellRead (enumName : String) (m : EnumMember) : Prop where
  belongs : m.enumName = enumName
  named : m.name = memberName m.id
  literal : ∀ j, m.literal = some j → m.id = literalId j

/-! ## Member names -/

theorem pascalToScreamingSnake_eq (name : String) (special : SpecialNames) :
    Naming.pascalToScreamingSnake name special =
      (((Naming.splitWords name special false).1.map Unicode.upperText).getD name,
        (Naming.splitWords name special false).2) := by
  unfold Naming.pascalToScreamingSnake
  split <;> simp_all

/-- Special names that keep member names do not change them, and stay such names. -/
theorem pascalToScreamingSnake_stable {special : SpecialNames} (stable : StableNames special)
    (id : String) :
    (Naming.pascalToScreamingSnake id special).1 = memberName id ∧
      StableNames (Naming.pascalToScreamingSnake id special).2 := by
  by_cases known : special.contains id = true
  · -- a special id is its own member name
    have leaves : Naming.splitWords id special false = (none, special) := by
      simp [Naming.splitWords, known]
    rw [pascalToScreamingSnake_eq, leaves]
    exact ⟨(stable id (Naming.contains_eq_true.mp known)).symm, stable⟩
  · obtain ⟨words, added⟩ := Naming.splitWords_unknown false (by simpa using known)
    refine ⟨by rw [pascalToScreamingSnake_eq, memberName, pascalToScreamingSnake_eq, words], ?_⟩
    rw [pascalToScreamingSnake_eq]
    rcases added with same | ⟨inserted, unsplit⟩
    · rw [same]; exact stable
    · -- an id added to the special names does not split, so it is its own member name
      rw [inserted]
      intro x member
      rcases Naming.mem_insertSorted member with rfl | old
      · rw [memberName, pascalToScreamingSnake_eq, unsplit]; rfl
      · exact stable x old

/-! ## Setting members -/

theorem mem_setMember_self (ms : List EnumMember) (m : EnumMember) : m ∈ setMember ms m := by
  unfold setMember
  split
  · next present =>
    obtain ⟨q, member, same⟩ := List.any_eq_true.mp present
    exact List.mem_map.mpr ⟨q, member, by simp [same]⟩
  · exact List.mem_append_right _ List.mem_cons_self

/-- Setting a member keeps every member of another name. -/
theorem mem_setMember_other {ms : List EnumMember} {m x : EnumMember} (member : x ∈ ms)
    (other : x.name ≠ m.name) : x ∈ setMember ms m := by
  unfold setMember
  split
  · exact List.mem_map.mpr ⟨x, member, by simp [other]⟩
  · exact List.mem_append_left _ member

/-! ## Reading the entries -/

/-- One entry read: `null` is passed over; any other entry sets a well read member of its id,
with special names that still keep member names. -/
theorem readMembers_step {enumName : String} {scratch : SpecialNames} {acc ms : List EnumMember}
    {raw : Json} {rest : List Json} (read : readMembers enumName scratch acc (raw :: rest) = .ok ms)
    (stable : StableNames scratch) :
    (raw = .null ∧ readMembers enumName scratch acc rest = .ok ms) ∨
      ∃ m scratch', entryId raw = some m.id ∧ WellRead enumName m ∧ StableNames scratch' ∧
        readMembers enumName scratch' (setMember acc m) rest = .ok ms := by
  cases raw with
  | null => exact .inl ⟨rfl, by simpa only [readMembers] using read⟩
  | obj entry =>
    simp only [readMembers] at read
    split at read
    · next idJson found =>
      obtain ⟨⟨id, description, literal⟩, made, next⟩ := Compiling.except_bind_ok read
      cases made
      have named := pascalToScreamingSnake_stable stable (literalId idJson)
      refine .inr ⟨_, _, ?_, ?_, named.2, next⟩
      · simp [entryId, found]
      · exact ⟨rfl, named.1, fun _ same => by cases same⟩
    · cases read
  | _ =>
    simp only [readMembers] at read
    obtain ⟨⟨id, description, literal⟩, made, next⟩ := Compiling.except_bind_ok read
    cases made
    refine .inr ⟨_, _, rfl, ⟨rfl, ?_, fun j same => ?_⟩, ?_, next⟩
    · exact (pascalToScreamingSnake_stable stable _).1
    · cases same
      rfl
    · exact (pascalToScreamingSnake_stable stable _).2

/-- Every member read is well read. -/
theorem readMembers_wellRead {enumName : String} :
    ∀ {values : List Json} {scratch : SpecialNames} {acc ms : List EnumMember},
      readMembers enumName scratch acc values = .ok ms → StableNames scratch →
      (∀ m ∈ acc, WellRead enumName m) → ∀ m ∈ ms, WellRead enumName m
  | [], _, _, _, read, _, wellRead => by
    simp only [readMembers, Except.ok.injEq] at read
    exact read ▸ wellRead
  | raw :: rest, scratch, acc, ms, read, stable, wellRead => by
    rcases readMembers_step read stable with ⟨-, next⟩ | ⟨m, scratch', -, made, stable', next⟩
    · exact readMembers_wellRead next stable wellRead
    · refine readMembers_wellRead next stable' fun x member => ?_
      rcases Compiler.EnumType.mem_setMember member with rfl | old
      · exact made
      · exact wellRead x old

/-- A member of id `x` stays a member of id `x` while no later entry has another id of the
same member name. -/
theorem readMembers_keeps {enumName x : String} :
    ∀ {values : List Json} {scratch : SpecialNames} {acc ms : List EnumMember},
      readMembers enumName scratch acc values = .ok ms → StableNames scratch →
      (∀ m ∈ acc, WellRead enumName m) →
      (∀ later ∈ values, ∀ x' ∈ entryId later, memberName x' = memberName x → x' = x) →
      x ∈ acc.map (·.id) → x ∈ ms.map (·.id)
  | [], _, _, _, read, _, _, _, present => by
    simp only [readMembers, Except.ok.injEq] at read
    exact read ▸ present
  | raw :: rest, scratch, acc, ms, read, stable, wellRead, survives, present => by
    have laterSurvive := fun later (member : later ∈ rest) => survives later (List.mem_cons_of_mem _ member)
    rcases readMembers_step read stable with ⟨-, next⟩ | ⟨m, scratch', entry, made, stable', next⟩
    · exact readMembers_keeps next stable wellRead laterSurvive present
    · have wellRead' : ∀ y ∈ setMember acc m, WellRead enumName y := fun y member => by
        rcases Compiler.EnumType.mem_setMember member with rfl | old
        · exact made
        · exact wellRead y old
      refine readMembers_keeps next stable' wellRead' laterSurvive ?_
      obtain ⟨y, member, rfl⟩ := List.mem_map.mp present
      -- the member of id `x` is replaced only by a member of the same id
      by_cases sameName : y.name = m.name
      · have sameId : m.id = y.id := by
          refine survives raw List.mem_cons_self m.id entry ?_
          rw [← made.named, ← (wellRead y member).named, sameName]
        exact List.mem_map.mpr ⟨m, mem_setMember_self acc m, sameId⟩
      · exact List.mem_map.mpr ⟨y, mem_setMember_other member sameName, rfl⟩

/-- An entry whose member no later entry replaces leaves a member of its id. -/
theorem readMembers_entry {enumName x : String} {raw : Json} {after : List Json}
    (entry : entryId raw = some x)
    (survives : ∀ later ∈ after, ∀ x' ∈ entryId later, memberName x' = memberName x → x' = x) :
    ∀ {before : List Json} {scratch : SpecialNames} {acc ms : List EnumMember},
      readMembers enumName scratch acc (before ++ raw :: after) = .ok ms → StableNames scratch →
      (∀ m ∈ acc, WellRead enumName m) → x ∈ ms.map (·.id)
  | [], scratch, acc, ms, read, stable, wellRead => by
    rcases readMembers_step read stable with ⟨rfl, -⟩ | ⟨m, scratch', set, made, stable', next⟩
    · cases entry
    · have same : m.id = x := Option.some.inj (set.symm.trans entry)
      have wellRead' : ∀ y ∈ setMember acc m, WellRead enumName y := fun y member => by
        rcases Compiler.EnumType.mem_setMember member with rfl | old
        · exact made
        · exact wellRead y old
      exact readMembers_keeps next stable' wellRead' survives
        (List.mem_map.mpr ⟨m, mem_setMember_self acc m, same⟩)
  | b :: before, scratch, acc, ms, read, stable, wellRead => by
    rcases readMembers_step read stable with ⟨-, next⟩ | ⟨m, scratch', -, made, stable', next⟩
    · exact readMembers_entry entry survives next stable wellRead
    · refine readMembers_entry entry survives next stable' fun y member => ?_
      rcases Compiler.EnumType.mem_setMember member with rfl | old
      · exact made
      · exact wellRead y old

/-! ## Finding members -/

/-- Members with distinct names, each named by its id, have distinct ids. -/
theorem ids_nodup {enumName : String} {ms : List EnumMember} (distinct : (ms.map (·.name)).Nodup)
    (wellRead : ∀ m ∈ ms, WellRead enumName m) : (ms.map (·.id)).Nodup := by
  have names : ms.map (·.name) = (ms.map (·.id)).map memberName := by
    rw [List.map_map]
    exact List.map_congr_left fun m member => (wellRead m member).named
  exact List.Nodup.of_map memberName (names ▸ distinct)

/-- A value that reads as an id is looked up by that id. -/
theorem lookup_of_id? (e : EnumType) {v : Value} {x : String} (reads : v.id? = some x) :
    e.lookup v = e.byId? x := by
  cases v <;> simp_all [lookup, Value.id?]

/-- A map whose first field is `Id` is looked up by that id. -/
theorem lookup_idMap (e : EnumType) (x : String) (rest : List (String × Value)) :
    e.lookup (.map (("Id", .str x) :: rest)) = e.byId? x := by
  simp [lookup, Value.lookup, Value.id?]

theorem id?_ofJson {j : Json} (scalar : isScalarLiteral j = true) :
    (Value.ofJson j).id? = some (literalId j) := by
  cases j <;> simp_all [isScalarLiteral, Value.ofJson, Value.id?, literalId, Json.compact,
    Json.render, Json.intText]

/-- Every raw form of an entry is looked up by the entry's id. -/
theorem lookup_rawForms (e : EnumType) {raw : Json} {x : String} (entry : entryId raw = some x) :
    ∀ v ∈ rawForms raw x, e.lookup v = e.byId? x := by
  intro v form
  simp only [rawForms, List.mem_cons] at form
  rcases form with rfl | rfl | literal
  · exact lookup_of_id? e rfl
  · exact lookup_idMap e x []
  · split at literal
    · next scalar =>
      rw [List.mem_singleton.mp literal]
      refine lookup_of_id? e ?_
      rw [id?_ofJson scalar]
      -- a literal that reads back as an id is neither `null` nor a record
      cases raw <;> simp_all [isScalarLiteral, entryId]
    · cases literal

/-- A member's plain form is looked up by its id, unless its literal is one that does not read
back as an id. -/
theorem lookup_toPlain (e : EnumType) {enumName : String} {m : EnumMember}
    (wellRead : WellRead enumName m) (scalar : ∀ j, m.literal = some j → isScalarLiteral j = true) :
    e.lookup m.toPlain = e.byId? m.id := by
  unfold EnumMember.toPlain
  split
  · next j literal =>
    refine lookup_of_id? e ?_
    rw [id?_ofJson (scalar j literal), wellRead.literal j literal]
  · exact lookup_idMap e m.id _

/-- A member is found by its id among members with distinct ids. -/
theorem byId?_own {e : EnumType} {m : EnumMember} (distinct : (e.members.map (·.id)).Nodup)
    (member : m ∈ e.members) : e.byId? m.id = some m :=
  find?_key_of_nodup distinct member

/-- Casting to an enumeration casts to the member the value looks up, leaving the special names
as they are. -/
theorem cast_enum {r : Registry} {name : String} {et : EnumType}
    (registered : r.enumType name = .ok et) {v : Value} {m : EnumMember}
    (found : et.lookup v = some m) (vocab : Vocabulary) :
    (r.cast (.enum name) v).run vocab = (.ok (.enum m), vocab) := by
  obtain ⟨k, depth⟩ : ∃ k, r.castDepth v = k + 1 :=
    ⟨r.castDepth v - 1, by have := castDepth_enough r v; omega⟩
  unfold Registry.cast
  rw [depth]
  simp [Registry.castWith, registered, found]
  rfl

/-! ## The members of an enumeration -/

/-- What an enumeration reads from its `enum` list: members with distinct ids; every entry
whose member no later entry replaces is cast, from each of its raw forms, to the member of its
id; and every member whose literal reads back as an id is found again from its plain form. -/
theorem enum_members_found {r : Registry} {name : String} {d : Definition} {et : EnumType}
    (read : ofDefinition name d = .ok et) (registered : r.enumType name = .ok et) :
    (et.members.map (·.id)).Nodup ∧
      (∀ before raw after x, d.enumValues? = some (before ++ raw :: after) →
        entryId raw = some x →
        (∀ later ∈ after, ∀ x' ∈ entryId later, memberName x' = memberName x → x' = x) →
        ∃ m ∈ et.members, m.id = x ∧ ∀ v ∈ rawForms raw x, ∀ vocab,
          (r.cast (.enum name) v).run vocab = (.ok (.enum m), vocab)) ∧
      (∀ m ∈ et.members, (∀ j, m.literal = some j → isScalarLiteral j = true) →
        et.lookup m.toPlain = some m) := by
  unfold ofDefinition at read
  split at read
  · cases read
  · next values listed =>
    obtain ⟨members, readAll, built⟩ := Compiling.except_bind_ok read
    cases built
    have fresh : StableNames {} := nofun
    have wellRead := readMembers_wellRead readAll fresh nofun
    have distinct := ids_nodup (Compiler.EnumType.readMembers_distinct readAll List.nodup_nil)
      wellRead
    refine ⟨distinct, ?_, ?_⟩
    · intro before raw after x entries entry survives
      rw [listed] at entries
      cases entries
      obtain ⟨m, member, rfl⟩ :=
        List.mem_map.mp (readMembers_entry entry survives readAll fresh nofun)
      refine ⟨m, member, rfl, fun v form vocab => cast_enum registered ?_ vocab⟩
      rw [lookup_rawForms _ entry v form]
      exact byId?_own distinct member
    · intro m member scalar
      rw [lookup_toPlain _ (wellRead m member) scalar]
      exact byId?_own distinct member

/-- An enumeration of a string, an integer and a record. -/
def sizes : Definition :=
  ⟨[("enum", .arr [.str "Small", .int 2, .obj [("Id", .str "Large"), ("Description", .str "L")]])]⟩

/-- The entry `"Small"` of `sizes` is cast from its literal to the member of its id. -/
theorem small_size_cast :
    ∃ et, ofDefinition "Size" sizes = .ok et ∧ ∃ m ∈ et.members, m.id = "Small" ∧
      ∀ vocab, (({ enums := [et] } : Registry).cast (.enum "Size") (.str "Small")).run vocab =
        (.ok (.enum m), vocab) := by
  obtain ⟨et, read⟩ : ∃ et, ofDefinition "Size" sizes = .ok et := by
    have checked : (ofDefinition "Size" sizes).toBool = true := by decide +kernel
    cases read : ofDefinition "Size" sizes with
    | error e => rw [read] at checked; cases checked
    | ok et => exact ⟨et, rfl⟩
  have registered : ({ enums := [et] } : Registry).enumType "Size" = .ok et := by
    simp [Registry.enumType, (Compiler.EnumType.ofDefinition_ok read).1]
  have names : memberName "2" ≠ memberName "Small" ∧ memberName "Large" ≠ memberName "Small" := by
    decide +kernel
  -- the later entries have other member names, so the member of `"Small"` stays
  have survives : ∀ later ∈ [Json.int 2, .obj [("Id", .str "Large"), ("Description", .str "L")]],
      ∀ x' ∈ entryId later, memberName x' = memberName "Small" → x' = "Small" := by
    intro later member x' entry same
    simp only [List.mem_cons, List.not_mem_nil, or_false] at member
    rcases member with rfl | rfl
    · cases entry
      exact absurd same names.1
    · cases entry
      exact absurd same names.2
  obtain ⟨m, member, id, casts⟩ :=
    (enum_members_found read registered).2.1 [] (.str "Small") _ "Small" rfl rfl survives
  exact ⟨et, read, m, member, id, casts _ List.mem_cons_self⟩

/-- An enumeration of one double. -/
def doubleEnum (x : Float) : Definition := ⟨[("enum", .arr [.float x])]⟩

/-- A double entry is read as a member with the double as its literal, yet the double itself
is no member when cast: a lookup reads no id from a double. -/
theorem double_entry_refused (name : String) (x : Float) :
    ∃ et, ofDefinition name (doubleEnum x) = .ok et ∧
      (∃ m ∈ et.members, m.literal = some (.float x)) ∧
      ∀ vocab, ∃ e,
        (({ enums := [et] } : Registry).cast (.enum name) (.number x)).run vocab = (.error e, vocab) := by
  let m : EnumMember :=
    ⟨name, (Naming.pascalToScreamingSnake (literalId (.float x)) {}).1, literalId (.float x), none,
      some (.float x)⟩
  have read : ofDefinition name (doubleEnum x) = .ok ⟨name, [m]⟩ := rfl
  have registered : ({ enums := [⟨name, [m]⟩] } : Registry).enumType name = .ok ⟨name, [m]⟩ := by
    simp [Registry.enumType]
  obtain ⟨k, depth⟩ : ∃ k, ({ enums := [⟨name, [m]⟩] } : Registry).castDepth (.number x) = k + 1 :=
    ⟨({ enums := [⟨name, [m]⟩] } : Registry).castDepth (.number x) - 1,
      by have := castDepth_enough { enums := [⟨name, [m]⟩] } (.number x); omega⟩
  refine ⟨_, read, ⟨m, List.mem_singleton_self m, rfl⟩, fun vocab => ?_⟩
  unfold Registry.cast
  rw [depth]
  simp [Registry.castWith, registered, lookup, Value.id?]
  exact ⟨_, rfl⟩

/-- An enumeration of two ids with one member name. -/
def collidingIds : Definition := ⟨[("enum", .arr [.str "ab", .str "AB"])]⟩

/-- The entries `"ab"` and `"AB"` have one member name, so the second replaces the first, and
`"ab"` is no member. -/
theorem colliding_ids_lose_member :
    ∃ et, ofDefinition "E" collidingIds = .ok et ∧ et.members.map (·.id) = ["AB"] ∧
      et.lookup (.str "ab") = none := by
  have checked : ((ofDefinition "E" collidingIds).toOption.map fun et =>
      (et.members.map (·.id), (et.lookup (.str "ab")).isNone)) = some (["AB"], true) := by
    decide +kernel
  cases read : ofDefinition "E" collidingIds with
  | error e => rw [read] at checked; cases checked
  | ok et =>
    rw [read] at checked
    simp only [Except.toOption, Option.map_some, Option.some.injEq, Prod.mk.injEq,
      Option.isNone_iff_eq_none] at checked
    exact ⟨et, rfl, checked⟩

end EnumType

end SchemaTypes
