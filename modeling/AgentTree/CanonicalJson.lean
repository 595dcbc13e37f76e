import AgentTree.JsonText

/-!
The canonical encoding is faithful: it can be read back, and two values have the same
encoding only if they differ in the order of names.
-/

namespace AgentTree

namespace Json

/-- The values that Python finds equal, if it also tells the types of numbers apart. -/
inductive Same : Json → Json → Prop
  | null : Same null null
  | bool (value : Bool) : Same (bool value) (bool value)
  | int (value : Int) : Same (int value) (int value)
  | float (text : String) : Same (float text) (float text)
  | str (value : String) : Same (str value) (str value)
  | arr {left right : List Json} : List.Forall₂ Same left right → Same (arr left) (arr right)
  | obj {left right : List (String × Json)} :
      (∀ name, Option.Rel Same ((obj left).get? name) ((obj right).get? name)) →
      Same (obj left) (obj right)

variable {floats : Floats}

theorem utf8_injective {first second : String} (same : utf8 first = utf8 second) : first = second := by
  have texts : textOf (utf8 first) = textOf (utf8 second) := by rw [same]
  simpa [textOf_utf8] using texts

theorem nameOrder_injective {first second : String} (same : nameOrder first = nameOrder second) :
    first = second := by
  unfold nameOrder at same
  exact utf8_injective (List.map_injective_iff.mpr (fun _ _ => UInt8.toNat_inj.mp) same)

theorem get?_eq_some {members : List (String × Json)} (distinct : (members.map Prod.fst).Nodup)
    {name : String} {value : Json} :
    (obj members).get? name = some value ↔ (name, value) ∈ members := by
  simp only [get?, Option.map_eq_some_iff]
  constructor
  · rintro ⟨⟨other, _⟩, found, rfl⟩
    have named := List.find?_some found
    have present := List.mem_of_find?_eq_some found
    simp only [decide_eq_true_eq] at named
    exact named ▸ present
  · intro present
    cases found : members.find? fun member => member.1 = name with
    | none =>
        have absent := List.find?_eq_none.mp found (name, value) present
        simp at absent
    | some entry =>
        have named := List.find?_some found
        have member := List.mem_of_find?_eq_some found
        simp only [decide_eq_true_eq] at named
        have same := List.inj_on_of_nodup_map distinct member present named
        exact ⟨entry, rfl, by rw [same]⟩

/-- The members of an object in canonical form. -/
def sortedMembers (members : List (String × Json)) : List (String × Json) :=
  (canonicalMembers members).insertionSort fun a b => nameOrder a.1 ≤ nameOrder b.1

theorem mem_sortedMembers {members : List (String × Json)} {name : String} {value : Json} :
    (name, value) ∈ sortedMembers members ↔
      ∃ before, (name, before) ∈ members ∧ before.canonical = value := by
  simp [sortedMembers, List.mem_insertionSort, canonicalMembers_eq]

theorem sortedMembers_distinct {members : List (String × Json)}
    (distinct : (members.map Prod.fst).Nodup) : ((sortedMembers members).map Prod.fst).Nodup := by
  have order := (List.perm_insertionSort (fun a b => nameOrder a.1 ≤ nameOrder b.1)
    (canonicalMembers members)).map Prod.fst
  refine order.nodup_iff.mpr ?_
  simpa [canonicalMembers_eq, Function.comp_def] using distinct

/-- Sorted lists with distinct names are equal if they have the same members. -/
theorem sortedMembers_eq {left right : List (String × Json)} (distinctLeft : (left.map Prod.fst).Nodup)
    (distinctRight : (right.map Prod.fst).Nodup)
    (same : ∀ member, member ∈ sortedMembers left ↔ member ∈ sortedMembers right) :
    sortedMembers left = sortedMembers right := by
  have namesLeft := sortedMembers_distinct distinctLeft
  have namesRight := sortedMembers_distinct distinctRight
  have perm : (sortedMembers left).Perm (sortedMembers right) :=
    (List.perm_ext_iff_of_nodup namesLeft.of_map namesRight.of_map).mpr same
  have sorted : ∀ members, (sortedMembers members).Pairwise
      fun a b => nameOrder a.1 ≤ nameOrder b.1 := fun members => List.pairwise_insertionSort _ _
  refine perm.eq_of_pairwise ?_ (sorted left) (sorted right)
  intro a b memberLeft memberRight below above
  have named : a.1 = b.1 := nameOrder_injective (le_antisymm below above)
  exact List.inj_on_of_nodup_map namesLeft memberLeft ((same b).mpr memberRight) named

theorem genuine_member : ∀ {members : List (String × Json)} {name : String} {value : Json},
    GenuineMembers floats members → (name, value) ∈ members → value.Genuine floats
  | [], _, _, _, present => by simp at present
  | (_, _) :: _, _, _, genuine, present => by
      rcases List.mem_cons.mp present with same | present
      · obtain ⟨rfl, rfl⟩ := Prod.mk.inj same
        exact genuine.1
      · exact genuine_member genuine.2 present

mutual

theorem same_iff : ∀ left right : Json, left.Genuine floats → right.Genuine floats →
    (Same left right ↔ left.canonical = right.canonical)
  | null, right, _, _ => by
      constructor
      · rintro ⟨⟩
        rfl
      · intro equal
        cases right <;> simp [canonical] at equal
        exact .null
  | bool value, right, _, _ => by
      constructor
      · rintro ⟨⟩
        rfl
      · intro equal
        cases right <;> simp [canonical] at equal
        exact equal ▸ .bool value
  | int value, right, _, _ => by
      constructor
      · rintro ⟨⟩
        rfl
      · intro equal
        cases right <;> simp [canonical] at equal
        exact equal ▸ .int value
  | float text, right, _, _ => by
      constructor
      · rintro ⟨⟩
        rfl
      · intro equal
        cases right <;> simp [canonical] at equal
        exact equal ▸ .float text
  | str value, right, _, _ => by
      constructor
      · rintro ⟨⟩
        rfl
      · intro equal
        cases right <;> simp [canonical] at equal
        exact equal ▸ .str value
  | arr left, right, genuine, other => by
      cases right with
      | arr right =>
          have items := sameItems_iff left right genuine other
          constructor
          · rintro ⟨⟩
            next all => rw [canonical, canonical, items.mp all]
          · intro equal
            exact .arr (items.mpr (by simpa [canonical] using equal))
      | _ => exact ⟨nofun, by simp [canonical]⟩
  | obj left, right, genuine, other => by
      cases right with
      | obj right =>
          obtain ⟨distinctLeft, genuineLeft⟩ := genuine
          obtain ⟨distinctRight, genuineRight⟩ := other
          have values := sameMembers_iff left genuineLeft
          have entry : ∀ name value, (obj right).get? name = some value → value.Genuine floats :=
            fun name value found => genuine_member genuineRight ((get?_eq_some distinctRight).mp found)
          constructor
          · rintro ⟨⟩
            next all =>
              have sorted : sortedMembers left = sortedMembers right := by
                refine sortedMembers_eq distinctLeft distinctRight ?_
                rintro ⟨name, value⟩
                have rel := all name
                rw [mem_sortedMembers, mem_sortedMembers]
                simp only [← get?_eq_some distinctLeft, ← get?_eq_some distinctRight]
                cases first : (obj left).get? name with
                | none =>
                    rw [first] at rel
                    cases second : (obj right).get? name with
                    | none => simp
                    | some _ => simp [second] at rel
                | some one =>
                    rw [first] at rel
                    cases second : (obj right).get? name with
                    | none => simp [second] at rel
                    | some two =>
                        rw [second] at rel
                        have equal := (values (name, one) ((get?_eq_some distinctLeft).mp first) two
                          (entry name two second)).mp (by simpa using rel)
                        simp only [Option.some.injEq, exists_eq_left', equal]
              simp only [canonical]
              exact congrArg obj sorted
          · intro equal
            have sorted : sortedMembers left = sortedMembers right := by
              simp only [canonical, obj.injEq] at equal
              exact equal
            refine .obj fun name => ?_
            cases first : (obj left).get? name with
            | none =>
                cases second : (obj right).get? name with
                | none => exact .none
                | some two =>
                    have present : (name, two.canonical) ∈ sortedMembers left := by
                      rw [sorted, mem_sortedMembers]
                      exact ⟨two, (get?_eq_some distinctRight).mp second, rfl⟩
                    obtain ⟨one, member, _⟩ := mem_sortedMembers.mp present
                    rw [(get?_eq_some distinctLeft).mpr member] at first
                    simp at first
            | some one =>
                have present : (name, one.canonical) ∈ sortedMembers right := by
                  rw [← sorted, mem_sortedMembers]
                  exact ⟨one, (get?_eq_some distinctLeft).mp first, rfl⟩
                obtain ⟨two, member, same⟩ := mem_sortedMembers.mp present
                have second := (get?_eq_some distinctRight).mpr member
                rw [second]
                exact .some ((values (name, one) ((get?_eq_some distinctLeft).mp first) two
                  (entry name two second)).mpr same.symm)
      | _ => exact ⟨nofun, by simp [canonical]⟩

theorem sameItems_iff : ∀ left right : List Json, GenuineItems floats left → GenuineItems floats right →
    (List.Forall₂ Same left right ↔ canonicalItems left = canonicalItems right)
  | [], right, _, _ => by cases right <;> simp [canonicalItems]
  | item :: rest, right, genuine, other => by
      cases right with
      | nil => simp [canonicalItems]
      | cons next items =>
          have first := same_iff item next genuine.1 other.1
          have later := sameItems_iff rest items genuine.2 other.2
          simp [canonicalItems, first, later]

theorem sameMembers_iff : ∀ left : List (String × Json), GenuineMembers floats left →
    ∀ member ∈ left, ∀ right : Json, right.Genuine floats →
      (Same member.2 right ↔ member.2.canonical = right.canonical)
  | [], _ => by simp
  | (name, value) :: rest, genuine => by
      intro member present right other
      rcases List.mem_cons.mp present with rfl | present
      · exact same_iff value right genuine.1 other
      · exact sameMembers_iff rest genuine.2 member present right other

end

theorem genuineMembers_iff {members : List (String × Json)} :
    GenuineMembers floats members ↔ ∀ member ∈ members, member.2.Genuine floats := by
  induction members with
  | nil => simp [GenuineMembers]
  | cons member rest ih =>
      obtain ⟨name, value⟩ := member
      simp [GenuineMembers, ih]

theorem validMembers_iff {members : List (String × Json)} :
    validMembers members = true ↔ ∀ member ∈ members, member.2.valid = true := by
  induction members with
  | nil => simp [validMembers]
  | cons member rest ih =>
      obtain ⟨name, value⟩ := member
      simp [validMembers, ih]

mutual

theorem Genuine.canonical : ∀ {value : Json}, value.Genuine floats → value.canonical.Genuine floats
  | null, _ | bool _, _ | int _, _ | str _, _ => trivial
  | float _, genuine => genuine
  | arr items, genuine => genuineItems_canonical items genuine
  | obj members, genuine => by
      refine ⟨sortedMembers_distinct genuine.1, genuineMembers_iff.mpr ?_⟩
      rintro ⟨name, value⟩ present
      obtain ⟨before, member, rfl⟩ := mem_sortedMembers.mp present
      exact genuineMembers_canonical members genuine.2 (name, before) member

theorem genuineItems_canonical : ∀ items : List Json, GenuineItems floats items →
    GenuineItems floats (canonicalItems items)
  | [], _ => trivial
  | _ :: rest, genuine => ⟨genuine.1.canonical, genuineItems_canonical rest genuine.2⟩

theorem genuineMembers_canonical : ∀ members : List (String × Json), GenuineMembers floats members →
    ∀ member ∈ members, member.2.canonical.Genuine floats
  | [], _ => by simp
  | (_, _) :: rest, genuine => by
      intro member present
      rcases List.mem_cons.mp present with rfl | present
      · exact genuine.1.canonical
      · exact genuineMembers_canonical rest genuine.2 member present

end

mutual

theorem valid_canonical : ∀ value : Json, value.canonical.valid = value.valid
  | null | bool _ | int _ | str _ | float _ => rfl
  | arr items => validItems_canonical items
  | obj members => by
      rw [Bool.eq_iff_iff, canonical, valid, valid, validMembers_iff, validMembers_iff]
      have members_valid := validMembers_canonical members
      constructor
      · rintro all ⟨name, value⟩ present
        rw [← members_valid _ present]
        exact all _ (mem_sortedMembers.mpr ⟨value, present, rfl⟩)
      · rintro all ⟨name, value⟩ present
        obtain ⟨before, member, rfl⟩ := mem_sortedMembers.mp present
        exact (members_valid _ member).trans (all _ member)

theorem validItems_canonical : ∀ items : List Json, validItems (canonicalItems items) = validItems items
  | [] => rfl
  | item :: rest => by
      rw [canonicalItems, validItems, validItems, valid_canonical item, validItems_canonical rest]

theorem validMembers_canonical : ∀ members : List (String × Json),
    ∀ member ∈ members, member.2.canonical.valid = member.2.valid
  | [] => by simp
  | (_, value) :: rest => by
      intro member present
      rcases List.mem_cons.mp present with rfl | present
      · exact valid_canonical value
      · exact validMembers_canonical rest member present

end

theorem Accepted.canonical {value : Json} (accepted : value.Accepted floats) :
    value.canonical.Accepted floats :=
  ⟨accepted.1.canonical, (valid_canonical value).trans accepted.2⟩

theorem dictOf_distinct {members : List (String × Json)} (distinct : (members.map Prod.fst).Nodup) :
    dictOf members = members := by
  have folded : ∀ (rest found : List (String × Json)), ((found ++ rest).map Prod.fst).Nodup →
      rest.foldl setMember found = found ++ rest := by
    intro rest
    induction rest with
    | nil => simp
    | cons member rest ih =>
        intro found distinct
        have fresh : (found.any fun entry => entry.1 = member.1) = false := by
          rw [List.any_eq_false]
          intro entry present
          rw [List.map_append, List.nodup_append] at distinct
          have apart := distinct.2.2 entry.1 (List.mem_map_of_mem present) member.1 (by simp)
          simpa using apart
        have next := ih (found ++ [member]) (by simpa using distinct)
        rw [List.foldl_cons, setMember, fresh]
        simpa using next
  exact folded members [] (by simpa using distinct)

/-- `json.loads` reads the canonical bytes as the canonical value. -/
theorem loads_canonicalBytes {value : Json} (accepted : value.Accepted floats) :
    loads floats (canonicalBytes value) = some value.canonical :=
  readText_encode (fun members distinct => by rw [dictOf_distinct distinct]) accepted.canonical

theorem canonicalBytes_injective {first second : Json} (acceptedFirst : first.Accepted floats)
    (acceptedSecond : second.Accepted floats) (same : canonicalBytes first = canonicalBytes second) :
    first.canonical = second.canonical := by
  have one := loads_canonicalBytes acceptedFirst
  rw [same, loads_canonicalBytes acceptedSecond] at one
  exact (Option.some.inj one).symm

end Json

/-- The canonical encoding is injective up to the order of names, and `json.loads` reads it back. -/
theorem canonicalBytes_faithful (floats : Floats) (first second : Json)
    (acceptedFirst : first.Accepted floats) (acceptedSecond : second.Accepted floats) :
    (canonicalBytes first = canonicalBytes second ↔ first.Same second) ∧
      ∃ value, Json.loads floats (canonicalBytes first) = some value ∧ value.Same first := by
  refine ⟨?_, first.canonical, Json.loads_canonicalBytes acceptedFirst, ?_⟩
  · rw [Json.same_iff first second acceptedFirst.1 acceptedSecond.1]
    constructor
    · exact Json.canonicalBytes_injective acceptedFirst acceptedSecond
    · intro same
      rw [canonicalBytes, canonicalBytes, same]
  · rw [Json.same_iff _ _ acceptedFirst.canonical.1 acceptedFirst.1, Json.canonical_canonical]

/-- The floats of one number. -/
def Floats.half : Floats where
  finite text := text = "0.5"
  read := asciiText
  number := by
    rintro _ rfl
    refine ⟨⟨[], [0x30], [0x2e, 0x35], []⟩, ⟨.inl rfl, .inl rfl, .inr ?_, .inl rfl⟩, .inl (by simp), ?_⟩
    · exact ⟨[0x35], by simp, rfl, by decide⟩
    · decide
  back := by
    rintro _ rfl
    decide

theorem canonicalBytes_faithful_half :
    (canonicalBytes (.obj [("b", .float "0.5"), ("a", .int (-2))]) =
        canonicalBytes (.obj [("a", .int (-2)), ("b", .float "0.5")]) ↔
      Json.Same (.obj [("b", .float "0.5"), ("a", .int (-2))])
        (.obj [("a", .int (-2)), ("b", .float "0.5")])) ∧
      ∃ value, Json.loads Floats.half (canonicalBytes (.obj [("b", .float "0.5"), ("a", .int (-2))])) =
        some value ∧ value.Same (.obj [("b", .float "0.5"), ("a", .int (-2))]) := by
  have genuine : ∀ first second, first ≠ second →
      (Json.obj [(first, .float "0.5"), (second, .int (-2))]).Genuine Floats.half := fun first second apart =>
    ⟨by simpa using apart, .inl rfl, trivial, trivial⟩
  refine canonicalBytes_faithful Floats.half _ _ ⟨genuine "b" "a" (by decide), by decide⟩ ⟨?_, by decide⟩
  exact ⟨by decide, trivial, .inl rfl, trivial⟩

end AgentTree
