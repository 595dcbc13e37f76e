import AgentTree.AggregateChecks
import AgentTree.BackupCreation
import AgentTree.BackupSafety

/-!
What a restore reads from the members that a backup has written: the headers, the signature and the manifest.
-/

namespace AgentTree

namespace Json

variable {floats : Floats}

theorem accepted_str (text : String) : (str text).Accepted floats := ⟨trivial, rfl⟩

theorem accepted_int (value : Int) : (int value).Accepted floats := ⟨trivial, rfl⟩

theorem accepted_arr {items : List Json} (each : ∀ item ∈ items, item.Accepted floats) :
    (arr items).Accepted floats := by
  induction items with
  | nil => exact ⟨trivial, rfl⟩
  | cons item rest ih =>
      obtain ⟨genuine, checked⟩ := each item List.mem_cons_self
      obtain ⟨others, sound⟩ := ih fun other member => each other (List.mem_cons_of_mem _ member)
      refine ⟨⟨genuine, others⟩, ?_⟩
      have later : validItems rest = true := sound
      simp only [valid, validItems, checked, later, Bool.and_self]

theorem accepted_obj {members : List (String × Json)} (distinct : (members.map Prod.fst).Nodup)
    (each : ∀ member ∈ members, member.2.Accepted floats) : (obj members).Accepted floats :=
  ⟨⟨distinct, genuineMembers_iff.mpr fun member present => (each member present).1⟩,
    validMembers_iff.mpr fun member present => (each member present).2⟩

end Json

namespace Backup

open Outcome Relational
open HiddenBenchmark (exactly isObject uniqueObject exactly_canonical)

variable {site : Site} {source : Source} {snapshot : Snapshot} {objects : List (String × Bytes)}
  {artifacts : List (String × String)} {databaseSha256 : String}

theorem strictJson_canonicalBytes {value : Json} (accepted : value.Accepted site.floats) :
    site.strictJson (canonicalBytes value) = .ok value.canonical := by
  have read : Json.readText site.floats uniqueObject (canonicalBytes value) = some value.canonical :=
    Json.readText_encode (fun members distinct => if_pos distinct) accepted.canonical
  rw [Site.strictJson, read]
  rfl

theorem b64decode_encode (value : Bytes) : b64decode (b64urlEncode value) = some value := by
  have padding : ∀ count, (4 - count % 4) % 4 ≤ 3 := by omega
  have whole : (b64urlBytes value).length % 4 ≠ 1 := by
    rw [b64urlBytes_eq, List.length_map, base64Values_length]
    omega
  obtain ⟨taken, dropped⟩ := b64urlBytes_padded value ((4 - (b64urlBytes value).length % 4) % 4)
  have short : (4 - (b64urlBytes value).length % 4) % 4 ≤ 2 := by omega
  simp only [b64decode, utf8_b64urlEncode, taken, dropped, mapM_base64Value, Option.map_some, base64Bytes_values,
    List.length_replicate, decide_eq_true short, Bool.and_true]
  rw [if_pos (by simp [List.all_replicate])]

/-! The values are JSON without floats. -/

theorem objectEntry_accepted {floats : Floats} (object : String × Bytes) : (objectEntry object).Accepted floats := by
  refine Json.accepted_obj (by simp only [List.map_cons, List.map_nil]; decide) ?_
  simp only [List.forall_mem_cons, List.not_mem_nil, false_implies, implies_true, and_true]
  exact ⟨Json.accepted_str _, Json.accepted_int _, Json.accepted_str _⟩

theorem artifactEntry_accepted {floats : Floats} (artifact : String × String) :
    (artifactEntry artifact).Accepted floats := by
  refine Json.accepted_obj (by simp only [List.map_cons, List.map_nil]; decide) ?_
  simp only [List.forall_mem_cons, List.not_mem_nil, false_implies, implies_true, and_true]
  exact ⟨Json.accepted_str _, Json.accepted_str _⟩

theorem championEntry_accepted {floats : Floats} (champion : RegistryRow) :
    (championEntry champion).Accepted floats := by
  refine Json.accepted_obj (by simp only [List.map_cons, List.map_nil]; decide) ?_
  simp only [List.forall_mem_cons, List.not_mem_nil, false_implies, implies_true, and_true]
  exact ⟨Json.accepted_str _, Json.accepted_str _, Json.accepted_str _, Json.accepted_int _⟩

theorem authentication_accepted {floats : Floats} (keyId : String) (signature : Bytes) :
    (authentication keyId signature).Accepted floats := by
  refine Json.accepted_obj (by simp only [List.map_cons, List.map_nil]; decide) ?_
  simp only [List.forall_mem_cons, List.not_mem_nil, false_implies, implies_true, and_true]
  exact ⟨Json.accepted_str _, Json.accepted_str _, Json.accepted_str _⟩

theorem manifestJson_accepted {floats : Floats} :
    (manifestJson source snapshot objects artifacts databaseSha256).Accepted floats := by
  have database : ∀ size : Int, (Json.obj [("member", .str databaseMember), ("size_bytes", .int size),
      ("sha256", .str databaseSha256)]).Accepted floats := by
    intro size
    refine Json.accepted_obj (by simp only [List.map_cons, List.map_nil]; decide) ?_
    simp only [List.forall_mem_cons, List.not_mem_nil, false_implies, implies_true, and_true]
    exact ⟨Json.accepted_str _, Json.accepted_int _, Json.accepted_str _⟩
  have entries : ∀ {α : Type} (items : List α) (entry : α → Json), (∀ item, (entry item).Accepted floats) →
      (Json.arr (items.map entry)).Accepted floats := by
    intro α items entry each
    refine Json.accepted_arr fun value member => ?_
    obtain ⟨item, _, rfl⟩ := List.mem_map.mp member
    exact each item
  refine Json.accepted_obj (by simp only [List.map_cons, List.map_nil]; decide) ?_
  simp only [List.forall_mem_cons, List.not_mem_nil, false_implies, implies_true, and_true]
  exact ⟨Json.accepted_str _, Json.accepted_int _, Json.accepted_int _, Json.accepted_str _, Json.accepted_int _,
    database _, entries _ _ objectEntry_accepted, entries _ _ artifactEntry_accepted,
    entries _ _ championEntry_accepted⟩

/-! The manifest. -/

/-- A member of an object is found in its canonical form. -/
theorem get?_canonical_of {members : List (String × Json)} {name : String} {value : Json}
    (distinct : (members.map Prod.fst).Nodup) (found : (Json.obj members).get? name = some value) :
    (Json.obj members).canonical.get? name = some value.canonical := by
  rw [get?_canonical distinct, found]
  rfl

theorem get?_canonical_flat {members : List (String × Json)} (distinct : (members.map Prod.fst).Nodup) {name : String}
    {value : Json} (flat : value.canonical = value) (found : (Json.obj members).get? name = some value) :
    (Json.obj members).canonical.get? name = some value := by
  rw [get?_canonical_of distinct found, flat]

theorem canonical_arr {α : Type} (items : List α) (entry : α → Json) :
    (Json.arr (items.map entry)).canonical = .arr (items.map fun item => (entry item).canonical) := by
  rw [Json.canonical, Json.canonicalItems_eq, List.map_map]
  rfl

theorem sizeDigest_ok {value : Json} {cap size : Nat} {digest : String}
    (sized : value.get? "size_bytes" = some (.int size)) (named : value.get? "sha256" = some (.str digest))
    (bounded : size ≤ cap) (digested : isSha256 digest = true) :
    sizeDigest value cap = .ok ⟨size, digest, bounded, digested⟩ := by
  have within : (0 : Int) ≤ size ∧ (size : Int).toNat ≤ cap := ⟨Int.natCast_nonneg _, by simpa using bounded⟩
  simp only [sizeDigest, sized, named]
  rw [dif_pos within, dif_pos digested]
  rfl

/-- What a manifest says about the content that a backup has read. -/
structure Manifest.Declares (manifest : Manifest) (source : Source) (snapshot : Snapshot) (objects : List (String × Bytes))
    (artifacts : List (String × String)) (databaseSha256 : String) : Prop where
  value : manifest.value = (manifestJson source snapshot objects artifacts databaseSha256).canonical
  schemaVersion : manifest.schemaVersion = .int snapshot.userVersion
  size : manifest.database.sizeBytes = source.database.length
  digest : manifest.database.sha256 = databaseSha256
  objects : manifest.objects.map (fun item => (item.sha256, item.sizeBytes)) =
    objects.map fun object => (object.1, object.2.length)
  artifacts : manifest.artifacts.Perm (artifacts.map fun artifact => (.str artifact.1, artifact.2))
  champions : manifest.champions = snapshot.champions.map fun champion => (championEntry champion).canonical

theorem digest_length {digest : String} (digested : isSha256 digest = true) : (utf8 digest).length = 64 := by
  simp only [isSha256, Bool.and_eq_true, decide_eq_true_eq] at digested
  exact digested.1

theorem utf8_objectMember (digest : String) : utf8 (objectMember digest) =
    utf8 ("objects/sha256/" ++ String.ofList (digest.toList.take 2) ++ "/") ++ utf8 digest ++ utf8 ".json" :=
  (Json.utf8_append _ _).trans (congrArg (· ++ utf8 ".json") (Json.utf8_append _ _))

theorem objectMember_injective {first second : String} (one : isSha256 first = true) (two : isSha256 second = true)
    (same : objectMember first = objectMember second) : first = second := by
  have bytes := congrArg utf8 same
  rw [utf8_objectMember, utf8_objectMember] at bytes
  have tails := List.append_inj_right' (List.append_cancel_right bytes)
    ((digest_length one).trans (digest_length two).symm)
  exact Json.utf8_injective tails

theorem distinct_member (object : String × Bytes) : ([("member", Json.str (objectMember object.1)),
    ("size_bytes", Json.int object.2.length), ("sha256", Json.str object.1)].map Prod.fst).Nodup := by
  simp only [List.map_cons, List.map_nil]
  decide

theorem validateObjects_ok (sound : ∀ object ∈ objects, site.Sound object) (distinct : (objects.map Prod.fst).Nodup)
    {seenMembers seenDigests : List String}
    (fresh : ∀ object ∈ objects, objectMember object.1 ∉ seenMembers ∧ object.1 ∉ seenDigests) :
    ∃ entries, validateObjects seenMembers seenDigests (objects.map fun object => (objectEntry object).canonical) =
      .ok entries ∧
      entries.map (fun item => (item.sha256, item.sizeBytes)) = objects.map fun object => (object.1, object.2.length) := by
  induction objects generalizing seenMembers seenDigests with
  | nil => exact ⟨[], rfl, rfl⟩
  | cons object rest ih =>
      obtain ⟨newMember, newDigest⟩ := fresh object List.mem_cons_self
      obtain ⟨apart, others⟩ := List.nodup_cons.mp distinct
      have this := sound object List.mem_cons_self
      have later : ∀ other ∈ rest, objectMember other.1 ∉ objectMember object.1 :: seenMembers ∧
          other.1 ∉ object.1 :: seenDigests := by
        intro other member
        have old := fresh other (List.mem_cons_of_mem _ member)
        have different : other.1 ≠ object.1 := fun same => apart (same ▸ List.mem_map_of_mem member)
        refine ⟨?_, by simp [different, old.2]⟩
        rw [List.mem_cons, not_or]
        refine ⟨fun same => different ?_, old.1⟩
        exact objectMember_injective (sound other (List.mem_cons_of_mem _ member)).digested this.digested same
      obtain ⟨entries, ran, named⟩ := ih (fun other member => sound other (List.mem_cons_of_mem _ member)) others later
      have entry : ∀ {name : String} {value : Json}, value.canonical = value → (objectEntry object).get? name = some value →
          (objectEntry object).canonical.get? name = some value := get?_canonical_flat (distinct_member object)
      have sized : sizeDigest (objectEntry object).canonical maxPolicyBytes = .ok ⟨object.2.length, object.1, this.bounded,
        this.digested⟩ := sizeDigest_ok (entry rfl rfl) (entry rfl rfl) this.bounded this.digested
      have shape : exactly (objectEntry object).canonical ["member", "size_bytes", "sha256"] = true := by
        rw [exactly_canonical]
        rfl
      have member : (objectEntry object).canonical.get? "member" = some (.str (objectMember object.1)) := entry rfl rfl
      refine ⟨⟨object.2.length, object.1, this.bounded, this.digested⟩ :: entries, ?_, by simp [named]⟩
      have unseen : (!(seenMembers.contains (objectMember object.1) || seenDigests.contains object.1)) = true := by
        simp [newMember, newDigest]
      simp only [List.map_cons, validateObjects, shape, sized, member, decide_true, unseen, ran, ensure, if_true, bind,
        Except.bind, pure, Except.pure]

theorem validateArtifact_ok {artifact : String × String} (short : artifact.1.length = 20)
    (digested : isSha256 artifact.2 = true) :
    validateArtifact (artifactEntry artifact).canonical = .ok (.str artifact.1, artifact.2) := by
  have distinct : ([("tenant_namespace", Json.str artifact.1), ("content_sha256", Json.str artifact.2)].map
      Prod.fst).Nodup := by
    simp only [List.map_cons, List.map_nil]
    decide
  have entry : ∀ {name : String} {value : Json}, value.canonical = value → (artifactEntry artifact).get? name = some value →
      (artifactEntry artifact).canonical.get? name = some value := get?_canonical_flat distinct
  have shape : exactly (artifactEntry artifact).canonical ["tenant_namespace", "content_sha256"] = true := by
    rw [exactly_canonical]
    rfl
  have directory : (artifactEntry artifact).canonical.get? "tenant_namespace" = some (.str artifact.1) := entry rfl rfl
  have digest : (artifactEntry artifact).canonical.get? "content_sha256" = some (.str artifact.2) := entry rfl rfl
  simp only [validateArtifact, shape, directory, digest, Option.getD_some, lengthOf, short, digested, ensure, decide_true,
    if_true, bind, Except.bind, pure, Except.pure]

theorem validateManifest_ok (bounded : source.database.length ≤ maxDatabaseBytes)
    (digested : isSha256 databaseSha256 = true) (versioned : snapshot.userVersion = schemaVersion)
    (sound : ∀ object ∈ objects, site.Sound object) (distinct : (objects.map Prod.fst).Nodup)
    (placed : ∀ artifact ∈ artifacts, artifact.1.length = 20 ∧ isSha256 artifact.2 = true) :
    ∃ manifest, validateManifest (manifestJson source snapshot objects artifacts databaseSha256).canonical = .ok manifest ∧
      manifest.Declares source snapshot objects artifacts databaseSha256 := by
  have flat : ∀ {name : String} {value : Json}, value.canonical = value →
      (manifestJson source snapshot objects artifacts databaseSha256).get? name = some value →
      (manifestJson source snapshot objects artifacts databaseSha256).canonical.get? name = some value :=
    get?_canonical_flat (by simp only [List.map_cons, List.map_nil]; decide)
  have child : ∀ {name : String} {value : Json},
      (manifestJson source snapshot objects artifacts databaseSha256).get? name = some value →
      (manifestJson source snapshot objects artifacts databaseSha256).canonical.get? name = some value.canonical :=
    get?_canonical_of (by simp only [List.map_cons, List.map_nil]; decide)
  have shape : exactly (manifestJson source snapshot objects artifacts databaseSha256).canonical manifestNames = true := by
    rw [exactly_canonical]
    rfl
  generalize declared : (manifestJson source snapshot objects artifacts databaseSha256).canonical = value at *
  have formatted : value.get? "format" = some (.str format) := flat rfl rfl
  have version : value.get? "format_version" = some (.int formatVersion) := flat rfl rfl
  have schema : value.get? "schema_version" = some (.int snapshot.userVersion) := flat rfl rfl
  have one : equalsOne (.int 1) = true := by decide
  obtain ⟨entries, read, named⟩ : ∃ entries, validateObjects [] [] (objects.map fun object =>
      (objectEntry object).canonical) = .ok entries ∧ entries.map (fun item => (item.sha256, item.sizeBytes)) =
      objects.map fun object => (object.1, object.2.length) := validateObjects_ok sound distinct (by simp)
  have objectItems : value.get? "objects" = some (.arr (objects.map fun object => (objectEntry object).canonical)) := by
    rw [← canonical_arr]
    exact child rfl
  have artifactItems : value.get? "artifacts" = some (.arr ((artifacts.insertionSort artifactOrder).map fun artifact =>
      (artifactEntry artifact).canonical)) := by
    rw [← canonical_arr]
    exact child rfl
  have championItems : value.get? "champions" = some (.arr (snapshot.champions.map fun champion =>
      (championEntry champion).canonical)) := by
    rw [← canonical_arr]
    exact child rfl
  have objectsEach : (objects.map fun object => (objectEntry object).canonical).all isObject = true := by
    simp [objectEntry, Json.canonical, isObject]
  have order := List.perm_insertionSort artifactOrder artifacts
  have artifactsRead : ((artifacts.insertionSort artifactOrder).map fun artifact => (artifactEntry artifact).canonical).mapM
      validateArtifact = .ok ((artifacts.insertionSort artifactOrder).map fun artifact => (.str artifact.1, artifact.2)) :=
    mapM_map_ok fun artifact member =>
      let ⟨short, digest⟩ := placed artifact (order.mem_iff.mp member)
      validateArtifact_ok short digest
  let databaseEntry : Json := .obj [("member", .str databaseMember), ("size_bytes", .int source.database.length),
    ("sha256", .str databaseSha256)]
  have databaseItem : value.get? "database" = some databaseEntry.canonical := child rfl
  have entry : ∀ {name : String} {value : Json}, value.canonical = value → databaseEntry.get? name = some value →
      databaseEntry.canonical.get? name = some value :=
    get?_canonical_flat (by simp only [List.map_cons, List.map_nil]; decide)
  have databaseShape : exactly databaseEntry.canonical ["member", "size_bytes", "sha256"] = true := by
    rw [exactly_canonical]
    rfl
  have databaseNamed : databaseEntry.canonical.get? "member" = some (.str databaseMember) := entry rfl rfl
  have sized : sizeDigest databaseEntry.canonical maxDatabaseBytes = .ok ⟨source.database.length, databaseSha256, bounded,
      digested⟩ := sizeDigest_ok (entry rfl rfl) (entry rfl rfl) bounded digested
  refine ⟨⟨value, .int snapshot.userVersion, ⟨source.database.length, databaseSha256, bounded, digested⟩, entries,
    (artifacts.insertionSort artifactOrder).map fun artifact => (.str artifact.1, artifact.2),
    snapshot.champions.map fun champion => (championEntry champion).canonical⟩, ?_, ⟨declared.symm, rfl, rfl, rfl, named,
    order.map _, rfl⟩⟩
  simp only [validateManifest, shape, formatted, version, schema, versioned, databaseItem, databaseShape, databaseNamed,
    sized, objectItems, iterate, objectsEach, read, artifactItems, artifactsRead, championItems, Option.getD_some,
    Option.any_some, formatVersion, schemaVersion, one, ensure, decide_true, Bool.and_self, if_true, bind, Except.bind,
    pure, Except.pure]

/-! The headers. -/

theorem digest_bytes {digest : String} (digested : isSha256 digest = true) {b : UInt8} (member : b ∈ utf8 digest) :
    48 ≤ b.toNat ∧ b.toNat ≤ 57 ∨ 97 ≤ b.toNat ∧ b.toNat ≤ 102 := by
  simp only [isSha256, Bool.and_eq_true, List.all_eq_true] at digested
  have hex := digested.2 b member
  simp only [Bool.or_eq_true, Bool.and_eq_true, decide_eq_true_eq, UInt8.le_iff_toNat_le] at hex
  exact hex

theorem digest_toList {digest : String} (digested : isSha256 digest = true) :
    digest.toList = (utf8 digest).map fun b => Char.ofNat b.toNat := by
  have ascii : ∀ b ∈ utf8 digest, b.toNat < 128 := by
    intro b member
    have := digest_bytes digested member
    omega
  have spelled : digest = asciiText (utf8 digest) := Json.utf8_injective (utf8_asciiText ascii).symm
  have chars := congrArg String.toList spelled
  rwa [asciiText, String.toList_ofList] at chars

/-- The characters of a digest do not separate parts of a path. -/
theorem digest_chars {digest : String} (digested : isSha256 digest = true) {c : Char} (member : c ∈ digest.toList) :
    c ∉ ['/', '.', '\\', '\x00'] := by
  have each : ∀ n < 256, (48 ≤ n ∧ n ≤ 57 ∨ 97 ≤ n ∧ n ≤ 102) → Char.ofNat n ∉ ['/', '.', '\\', '\x00'] := by
    decide +kernel
  rw [digest_toList digested] at member
  obtain ⟨b, present, rfl⟩ := List.mem_map.mp member
  exact each b.toNat b.toNat_lt (digest_bytes digested present)

theorem namesParent_of_count {name : String} (few : name.toList.count '.' ≤ 1) : namesParent name = false := by
  rw [namesParent, Bool.eq_false_iff, Ne, List.contains_iff_mem]
  intro member
  have part : ['.', '.'].Sublist name.toList := by
    have joined : ['/'].intercalate (name.toList.splitOn '/') = name.toList := List.intercalate_splitOn '/'
    rw [← joined, List.intercalate]
    obtain ⟨i, found⟩ := List.mem_iff_getElem?.mp member
    exact List.sublist_flatten_of_mem (List.mem_iff_getElem?.mpr ⟨2 * i, List.getElem?_intersperse_two_mul.trans found⟩)
  have twice := part.count_le '.'
  simp at twice
  omega

/-- The header is one that the reader accepts. -/
def Safe (info : ZipInfo) : Prop := validateZipHeader [] info = .ok [info]

theorem validateZipHeader_ok {infos : List ZipInfo} {info : ZipInfo} (safe : Safe info)
    (fresh : info.filename ∉ infos.map ZipInfo.filename) : validateZipHeader infos info = .ok (infos ++ [info]) := by
  simp only [Safe, validateZipHeader, bind_eq_ok, ensure_eq_ok, pure_eq_ok] at safe ⊢
  obtain ⟨_, named, _, _, _, stored, _, plain, _, regular, _⟩ := safe
  refine ⟨(), named, (), ?_, (), stored, (), plain, (), regular, trivial⟩
  simpa using fresh

theorem validateZipHeaders_accepts {members : List ZipInfo} (safe : ∀ info ∈ members, Safe info)
    (distinct : (members.map ZipInfo.filename).Nodup) (manifest : manifestMember ∈ members.map ZipInfo.filename)
    (signature : signatureMember ∈ members.map ZipInfo.filename) : validateZipHeaders members = .ok members := by
  have each : ∀ rest before : List ZipInfo, ((before ++ rest).map ZipInfo.filename).Nodup → (∀ info ∈ rest, Safe info) →
      rest.foldlM validateZipHeader before = .ok (before ++ rest) := by
    intro rest
    induction rest with
    | nil => simp [pure, Except.pure]
    | cons info rest ih =>
        intro before distinct safe
        have fresh : info.filename ∉ before.map ZipInfo.filename := by
          intro member
          rw [List.map_append, List.nodup_append] at distinct
          exact distinct.2.2 _ member info.filename (by simp) rfl
        have later := ih (before ++ [info]) (by simpa using distinct) fun other member =>
          safe other (List.mem_cons_of_mem _ member)
        rw [List.append_assoc, List.singleton_append] at later
        rw [List.foldlM_cons, validateZipHeader_ok (safe info List.mem_cons_self) fresh]
        exact later
  have listed : ∀ name, name ∈ members.map ZipInfo.filename → members.any (·.filename = name) = true := by
    intro name member
    obtain ⟨info, present, rfl⟩ := List.mem_map.mp member
    exact List.any_eq_true.mpr ⟨info, present, by simp⟩
  have looped : members.foldlM validateZipHeader [] = .ok members := each members [] (by simpa using distinct) safe
  simp only [validateZipHeaders, looped, listed _ manifest, listed _ signature, Bool.and_self, ensure, if_true, bind,
    Except.bind, pure, Except.pure]

theorem objectMember_chars (digest : String) : (objectMember digest).toList = "objects/sha256/".toList ++
    digest.toList.take 2 ++ "/".toList ++ digest.toList ++ ".json".toList := by
  have start : (String.ofList (digest.toList.take 2)).toList = digest.toList.take 2 := String.toList_ofList
  unfold objectMember
  simp only [String.toList_append, start]

theorem safe_of_name {info : ZipInfo} (named : (!(info.filename = "" || info.filename.toList.contains '\\' ||
      info.filename.toList.contains '\x00' || info.filename.toList.head? = some '/' || namesParent info.filename ||
      info.filename.toList.getLast? = some '/')) = true)
    (stored : info.compressType = 0) (plain : info.flagBits = 0)
    (regular : (info.externalAttr >>> 16) &&& 0xFFFF &&& 0o170000 = 0 ∨
      (info.externalAttr >>> 16) &&& 0xFFFF &&& 0o170000 = 0o100000) : Safe info := by
  have whole : info.flagBits % 2 = 0 := by rw [plain]
  simp only [Safe, validateZipHeader, bind_eq_ok, ensure_eq_ok, pure_eq_ok]
  exact ⟨(), named, (), rfl, (), decide_eq_true stored, (), decide_eq_true whole, (), by simpa using regular, rfl⟩

/-- The modes of the two kinds of members. -/
theorem modes : ((0o600 <<< 16) >>> 16) &&& 0xFFFF &&& 0o170000 = 0 ∧
    ((0o100600 <<< 16) >>> 16) &&& 0xFFFF &&& 0o170000 = 0o100000 := by decide

theorem objectMember_head (digest : String) : (objectMember digest).toList.head? = some 'o' := by
  have letters : "objects/sha256/".toList = ['o', 'b', 'j', 'e', 'c', 't', 's', '/', 's', 'h', 'a', '2', '5', '6', '/'] := by
    decide
  rw [objectMember_chars, letters]
  rfl

theorem safe_object {digest : String} (digested : isSha256 digest = true) (data : Bytes) :
    Safe (storedFile (objectMember digest) data) := by
  have plain : ∀ c, c ∈ ['/', '.', '\\', '\x00'] → c ∉ digest.toList := fun c listed member =>
    digest_chars digested member listed
  have taken : ∀ c, c ∈ ['/', '.', '\\', '\x00'] → c ∉ digest.toList.take 2 := fun c listed member =>
    plain c listed (List.mem_of_mem_take member)
  have chars := objectMember_chars digest
  have letters : "objects/sha256/".toList = ['o', 'b', 'j', 'e', 'c', 't', 's', '/', 's', 'h', 'a', '2', '5', '6', '/'] ∧
      "/".toList = ['/'] ∧ ".json".toList = ['.', 'j', 's', 'o', 'n'] := by decide
  rw [letters.1, letters.2.1, letters.2.2] at chars
  have nonempty : objectMember digest ≠ "" := by
    intro same
    rw [same] at chars
    simp at chars
  have dots : namesParent (objectMember digest) = false := by
    refine namesParent_of_count ?_
    simp only [chars, List.count_append, List.count_eq_zero_of_not_mem (plain '.' (by simp)),
      List.count_eq_zero_of_not_mem (taken '.' (by simp))]
    decide
  have constant : ∀ c ∈ ['\\', '\x00'], c ∉ ['o', 'b', 'j', 'e', 'c', 't', 's', '/', 's', 'h', 'a', '2', '5', '6', '/'] ∧
      c ∉ ['/'] ∧ c ∉ ['.', 'j', 's', 'o', 'n'] := by decide
  have absent : ∀ c, c ∈ ['\\', '\x00'] → (objectMember digest).toList.contains c = false := by
    intro c listed
    have known : c ∈ ['/', '.', '\\', '\x00'] := List.mem_cons_of_mem _ (List.mem_cons_of_mem _ listed)
    obtain ⟨one, two, three⟩ := constant c listed
    rw [chars, Bool.eq_false_iff, Ne, List.contains_iff_mem]
    simp only [List.mem_append, plain c known, taken c known, one, two, three, or_self, not_false_eq_true]
  have last : (objectMember digest).toList.getLast? = some 'n' := by
    rw [chars, List.getLast?_append]
    rfl
  have named : (!(objectMember digest = "" || (objectMember digest).toList.contains '\\' ||
      (objectMember digest).toList.contains '\x00' || (objectMember digest).toList.head? = some '/' ||
      namesParent (objectMember digest) || (objectMember digest).toList.getLast? = some '/')) = true := by
    simp only [absent '\\' (by simp), absent '\x00' (by simp), objectMember_head, dots, last, nonempty]
    decide
  exact safe_of_name named rfl rfl (.inr modes.2)

/-- The members by their names. -/
theorem member_ok {infos : List ZipInfo} (distinct : (infos.map ZipInfo.filename).Nodup) {info : ZipInfo}
    (present : info ∈ infos) : member infos info.filename = .ok info := by
  have found : infos.find? (·.filename = info.filename) = some info := by
    induction infos with
    | nil => simp at present
    | cons first rest ih =>
        obtain ⟨apart, others⟩ := List.nodup_cons.mp distinct
        rcases List.mem_cons.mp present with rfl | later
        · simp
        · have other : first.filename ≠ info.filename := fun same => apart (same ▸ List.mem_map_of_mem later)
          rw [List.find?_cons_of_neg (by simpa using other)]
          exact ih others later
  rw [member, found]
  rfl

theorem readMember_ok {info : ZipInfo} {cap : Nat} (sized : info.fileSize = info.content.length)
    (whole : info.failure = none) (bounded : info.content.length ≤ cap) : readMember info cap = .ok info.content := by
  have taken : info.content.take (cap + 1) = info.content := List.take_of_length_le (by omega)
  simp only [readMember, ZipInfo.read, whole, taken, sized, bounded, ensure, decide_true, Bool.and_self, if_true, bind,
    Except.bind, pure, Except.pure]

variable {manifestBytes signatureBytes : Bytes}

theorem bundleMembers_names : (bundleMembers manifestBytes signatureBytes source.database objects).map ZipInfo.filename =
    manifestMember :: signatureMember :: databaseMember :: objects.map fun object => objectMember object.1 := by
  simp only [bundleMembers, List.map_cons, List.map_map]
  rfl

theorem bundleMembers_distinct (sound : ∀ object ∈ objects, site.Sound object) (distinct : (objects.map Prod.fst).Nodup) :
    ((bundleMembers manifestBytes signatureBytes source.database objects).map ZipInfo.filename).Nodup := by
  have named : ∀ name, name.toList.head? ≠ some 'o' → name ∉ objects.map fun object => objectMember object.1 := by
    intro name other member
    obtain ⟨object, _, rfl⟩ := List.mem_map.mp member
    exact other (objectMember_head object.1)
  have objectsDistinct : (objects.map fun object => objectMember object.1).Nodup := by
    have each : objects.map (fun object => objectMember object.1) = (objects.map Prod.fst).map objectMember := by
      rw [List.map_map]
      rfl
    rw [each]
    refine List.Nodup.map_on ?_ distinct
    intro first one second two same
    obtain ⟨object, present, rfl⟩ := List.mem_map.mp one
    obtain ⟨other, there, rfl⟩ := List.mem_map.mp two
    exact objectMember_injective (sound object present).digested (sound other there).digested same
  rw [bundleMembers_names]
  simp only [List.nodup_cons, List.mem_cons, not_or]
  exact ⟨⟨by decide, by decide, named _ (by decide)⟩, ⟨by decide, named _ (by decide)⟩, named _ (by decide), objectsDistinct⟩

theorem bundleMembers_safe (sound : ∀ object ∈ objects, site.Sound object) :
    ∀ info ∈ bundleMembers manifestBytes signatureBytes source.database objects, Safe info := by
  have fixed : ∀ name ∈ [manifestMember, signatureMember, databaseMember], (!(name = "" || name.toList.contains '\\' ||
      name.toList.contains '\x00' || name.toList.head? = some '/' || namesParent name ||
      name.toList.getLast? = some '/')) = true := by decide
  intro info present
  simp only [bundleMembers, List.mem_cons, List.mem_map] at present
  rcases present with rfl | rfl | rfl | ⟨object, member, rfl⟩
  · exact safe_of_name (fixed manifestMember (by decide)) rfl rfl (.inl modes.1)
  · exact safe_of_name (fixed signatureMember (by decide)) rfl rfl (.inl modes.1)
  · exact safe_of_name (fixed databaseMember (by decide)) rfl rfl (.inr modes.2)
  · exact safe_object (sound object member).digested object.2

/-- The archive opens if its manifest and its signature are not too large. -/
theorem openBundle_created {key : Bytes} (keyed : site.keys.key? source.activeKeyId = some key)
    (bounded : source.database.length ≤ maxDatabaseBytes)
    (digested : isSha256 databaseSha256 = true) (versioned : snapshot.userVersion = schemaVersion)
    (sound : ∀ object ∈ objects, site.Sound object) (distinct : (objects.map Prod.fst).Nodup)
    (placed : ∀ artifact ∈ artifacts, artifact.1.length = 20 ∧ isSha256 artifact.2 = true)
    (manifestBytes_eq : manifestBytes = canonicalBytes (manifestJson source snapshot objects artifacts databaseSha256))
    (signatureBytes_eq : signatureBytes =
      canonicalBytes (authentication source.activeKeyId (site.keys.hmac key manifestBytes)))
    (manifestFits : manifestBytes.length ≤ maxManifestBytes) (signatureFits : signatureBytes.length ≤ maxSignatureBytes) :
    ∃ manifest : Manifest, manifest.Declares source snapshot objects artifacts databaseSha256 ∧
      site.openBundle (.ok (bundleMembers manifestBytes signatureBytes source.database objects)) =
        .ok ⟨bundleMembers manifestBytes signatureBytes source.database objects, manifest, source.activeKeyId⟩ := by
  obtain ⟨manifest, valid, declares⟩ := validateManifest_ok bounded digested versioned sound distinct placed
  let members := bundleMembers manifestBytes signatureBytes source.database objects
  have apart : (members.map ZipInfo.filename).Nodup := bundleMembers_distinct sound distinct
  have names : members.map ZipInfo.filename = manifestMember :: signatureMember :: databaseMember ::
      objects.map fun object => objectMember object.1 := bundleMembers_names
  have headers : validateZipHeaders members = .ok members :=
    validateZipHeaders_accepts (bundleMembers_safe sound) apart (by simp [names]) (by simp [names])
  have manifestFound : member members manifestMember = .ok (storedText manifestMember manifestBytes) :=
    member_ok apart List.mem_cons_self
  have signatureFound : member members signatureMember = .ok (storedText signatureMember signatureBytes) :=
    member_ok apart (List.mem_cons_of_mem _ List.mem_cons_self)
  have accepted : (authentication source.activeKeyId (site.keys.hmac key manifestBytes)).Accepted site.floats :=
    authentication_accepted source.activeKeyId _
  have field : ∀ {name : String} {value : Json}, value.canonical = value →
      (authentication source.activeKeyId (site.keys.hmac key manifestBytes)).get? name = some value →
      (authentication source.activeKeyId (site.keys.hmac key manifestBytes)).canonical.get? name = some value :=
    get?_canonical_flat (by simp only [List.map_cons, List.map_nil]; decide)
  refine ⟨manifest, declares, openBundle_ok.mpr ⟨⟨members, rfl, headers⟩, ⟨_, _, manifestBytes, signatureBytes,
    (authentication source.activeKeyId (site.keys.hmac key manifestBytes)).canonical, _, manifestFound,
    readMember_ok rfl rfl manifestFits, signatureFound, readMember_ok rfl rfl signatureFits, ?_, ?_, ?_, ?_, ?_, valid⟩, ?_⟩⟩
  · rw [signatureBytes_eq, strictJson_canonicalBytes accepted]
  · rw [exactly_canonical]
    rfl
  · exact field rfl rfl
  · exact ⟨field rfl rfl, key, _, keyed, field rfl rfl, b64decode_encode _⟩
  · rw [manifestBytes_eq, strictJson_canonicalBytes manifestJson_accepted]
  · have objectNames := congrArg (List.map fun pair : String × Nat => objectMember pair.1) declares.objects
    simp only [List.map_map, Function.comp_def] at objectNames
    rw [names, objectNames]
    exact sameNames_iff.mpr fun _ => Iff.rfl

end Backup

end AgentTree
