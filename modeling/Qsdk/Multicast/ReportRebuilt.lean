/-
**The rebuilt report.**

What is left of the records is behind a header with their number and a checksum, and the lengths in
the IP header are those of the trimmed packet. `mc_ipv4_skb_rebuild` takes the length of the IP
header from the header, `mc_ipv6_skb_rebuild` counts on 48 bytes of headers (`ipv6SkbRebuild_eq`).
So a report is well formed unless it is an MLDv2 report behind longer headers (`wellFormed_iff`).
-/

import Qsdk.Multicast.ReportLoop

namespace Qsdk.ReportEdit

open Words

/-! ### Bytes and numbers of what is left -/

variable {version : Version} {packet : Packet} {grec left : Grec} {grecs : List Grec}
  {bytes header rest junk ip : List Nat} {tlen ngroup : Nat}

theorem putBe16_small (small : ∀ byte ∈ bytes, byte < 256) (pos value : Nat) :
    ∀ byte ∈ putBe16 bytes pos value, byte < 256 := by
  intro byte member
  rcases List.mem_or_eq_of_mem_set member with member | rfl
  · rcases List.mem_or_eq_of_mem_set member with member | rfl
    · exact small byte member
    · exact Nat.mod_lt _ (by decide)
  · exact Nat.mod_lt _ (by decide)

theorem Grec.mem_bytes {byte : Nat} : byte ∈ grec.bytes ↔ byte ∈ grec.kind ∨
    byte = grec.srcs.length / 256 % 256 ∨
    byte = grec.srcs.length % 256 ∨ byte ∈ grec.group ∨ byte ∈ grec.srcs.flatten := by
  unfold Grec.bytes
  simp only [List.mem_append, List.mem_cons, List.not_mem_nil, or_false]
  tauto

/-- The sources are some of the sources. -/
theorem Grec.withSrcs_small {kept : List (List Nat)} (some' : ∀ src ∈ kept, src ∈ grec.srcs)
    (small : ∀ byte ∈ grec.bytes, byte < 256) : ∀ byte ∈ (grec.withSrcs kept).bytes,
        byte < 256 := by
  intro byte member
  rcases Grec.mem_bytes.mp member with isKind | rfl | rfl | isGroup | isSrc
  · exact small byte (Grec.mem_bytes.mpr (.inl isKind))
  · exact Nat.mod_lt _ (by decide)
  · exact Nat.mod_lt _ (by decide)
  · exact small byte (Grec.mem_bytes.mpr (.inr (.inr (.inr (.inl isGroup)))))
  · obtain ⟨src, isIn, isByte⟩ := List.mem_flatten.mp isSrc
    have isOld : byte ∈ grec.srcs.flatten := List.mem_flatten.mpr ⟨src, some' src isIn, isByte⟩
    exact small byte (Grec.mem_bytes.mpr (.inr (.inr (.inr (.inr isOld)))))

theorem Outcome.left_small {outcome : Outcome} (isLeft : outcome.left grec = some left)
    (small : ∀ byte ∈ grec.bytes, byte < 256) : ∀ byte ∈ left.bytes, byte < 256 := by
  cases outcome with
  | keep =>
    obtain rfl := Option.some.inj isLeft
    exact small
  | whole => cases isLeft
  | sources suppressed =>
    unfold Outcome.left at isLeft
    dsimp only at isLeft
    split at isLeft
    · obtain rfl := Option.some.inj isLeft
      exact small
    · split at isLeft
      · cases isLeft
      · obtain rfl := Option.some.inj isLeft
        exact Grec.withSrcs_small (fun src member => (List.mem_filter.mp member).1) small

theorem leftOf_small (outcome : Nat → Outcome) (i : Nat)
    (small : ∀ byte ∈ encodeAll grecs, byte < 256) :
    ∀ byte ∈ encodeAll (leftOf outcome i grecs), byte < 256 := by
  induction grecs generalizing i with
  | nil => exact small
  | cons grec grecs ih =>
    rw [encodeAll_cons] at small
    obtain ⟨one, others⟩ := List.forall_mem_append.mp small
    rw [leftOf, encodeAll, List.flatMap_append]
    refine List.forall_mem_append.mpr ⟨?_, ih (i + 1) others⟩
    cases isLeft : (outcome i).left grec with
    | none => exact fun byte member => absurd member List.not_mem_nil
    | some left =>
      rw [show (some left).toList.flatMap Grec.bytes = left.bytes from encodeAll_singleton left]
      exact Outcome.left_small isLeft one

theorem length_leftOf_le (outcome : Nat → Outcome) (i : Nat) (grecs : List Grec) :
    (leftOf outcome i grecs).length ≤ grecs.length := by
  induction grecs generalizing i with
  | nil => exact Nat.le_refl _
  | cons grec grecs ih =>
    have one : ((outcome i).left grec).toList.length ≤ 1 := Option.length_toList_le
    have others := ih (i + 1)
    rw [leftOf, List.length_append, List.length_cons]
    omega

/-! ### Checksums -/

/-- A checksum that is written where nothing was. -/
theorem dvd_checksum {place more : Nat} (small : ∀ byte ∈ bytes, byte < 256)
    (short : bytes.length < 2 ^ 16) (inside : 2 * place + 1 < bytes.length) (few : more < 2 ^ 24) :
    65535 ∣ more + wordsSum (putBe16 (putBe16 bytes (2 * place) 0) (2 * place)
      (complement (more + wordsSum (putBe16 bytes (2 * place) 0)))) := by
  generalize isSum : more + wordsSum (putBe16 bytes (2 * place) 0) = sum
  have inside' : 2 * place + 1 < (putBe16 bytes (2 * place) 0).length := by
    rw [length_putBe16]
    exact inside
  have put := wordsSum_put (complement_lt sum) inside'
  have nothing := @be16At_put bytes (2 * place) 0 (by decide) inside
  have bound := wordsSum_le (putBe16_small small (2 * place) 0)
  rw [length_putBe16] at bound
  rw [nothing, Nat.add_zero] at put
  rw [put, ← Nat.add_assoc, isSum]
  exact dvd_add_complement (by omega)

/-- The header of the report, with the number of its records and a checksum. -/
def headed (header : List Nat) (ngroup check : Nat) : List Nat :=
  putBe16 (putBe16 (putBe16 header 6 ngroup) 2 0) 2 check

theorem headed_append (isLength : header.length = 8) (check : Nat) :
    putBe16 (putBe16 (putBe16 header 6 ngroup ++ rest) 2 0) 2 check =
        headed header ngroup check ++ rest := by
  rw [putBe16_append (by rw [length_putBe16, isLength]; decide),
    putBe16_append (by rw [length_putBe16, length_putBe16, isLength]; decide)]
  rfl

theorem length_headed (isLength : header.length = 8) (check : Nat) :
    (headed header ngroup check).length = 8 := by
  unfold headed
  rw [length_putBe16, length_putBe16, length_putBe16, isLength]

theorem headed_number (isLength : header.length = 8) (few : ngroup < 65536) (check : Nat) :
    be16At (headed header ngroup check ++ rest) 6 = ngroup := by
  rw [be16At_append (by rw [length_headed isLength]; decide)]
  unfold headed
  rw [be16At_put_other (by decide), be16At_put_other (by decide)]
  exact be16At_put few (by rw [isLength]; decide)

/-- The bytes behind the header that count. -/
theorem trimmed (isLength : header.length = 8) (isTlen : tlen = 8 + rest.length) (ngroup : Nat)
    (junk : List Nat) :
    (putBe16 (header ++ (rest ++ junk)) 6 ngroup).take tlen = putBe16 header 6 ngroup ++ rest := by
  rw [putBe16_append (by rw [isLength]; decide), ← List.append_assoc]
  exact List.take_left' (by rw [List.length_append, length_putBe16, isLength, isTlen])

/-- What is known of a report when it is rebuilt. -/
structure Trimmed (version : Version) (packet : Packet) (header rest : List Nat)
    (tlen ngroup : Nat) : Prop where
  isLength : header.length = 8
  data : ∃ junk, packet.data = header ++ (rest ++ junk)
  isTlen : tlen = 8 + rest.length
  few : ngroup < 65536
  some : ngroup ≠ 0
  ip : ∀ byte ∈ packet.ip, byte < 256
  bytes : ∀ byte ∈ header ++ rest, byte < 256
  total : packet.ip.length + tlen < 2 ^ 16
  hasHeader : version.HasHeader packet.ip

theorem Trimmed.small (known : Trimmed version packet header rest tlen ngroup) :
    ∀ byte ∈ putBe16 header 6 ngroup ++ rest, byte < 256 := by
  obtain ⟨front, back⟩ := List.forall_mem_append.mp known.bytes
  exact List.forall_mem_append.mpr ⟨putBe16_small front 6 ngroup, back⟩

theorem Trimmed.length (known : Trimmed version packet header rest tlen ngroup) :
    (putBe16 header 6 ngroup ++ rest).length = tlen := by
  rw [List.length_append, length_putBe16, known.isLength, known.isTlen]

/-- The checksum of the report. -/
theorem Trimmed.dvd (known : Trimmed version packet header rest tlen ngroup) {more : Nat}
    (few : more < 2 ^ 24) :
    65535 ∣ more + wordsSum (putBe16 (putBe16 (putBe16 header 6 ngroup ++ rest) 2 0) 2
      (complement (more + wordsSum (putBe16 (putBe16 header 6 ngroup ++ rest) 2 0)))) := by
  have total := known.total
  have isTlen := known.isTlen
  exact @dvd_checksum _ 1 more known.small (by rw [known.length]; omega)
    (by rw [known.length]; omega) few

/-- **`mc_ipv4_skb_rebuild`.** -/
theorem ipv4SkbRebuild_eq (known : Trimmed .igmp3 packet header rest tlen ngroup) :
    ∃ new, ipv4SkbRebuild true packet tlen ngroup = some new ∧ new.data.drop 8 = rest ∧
    be16At new.data 6 = ngroup ∧
      new.Right .igmp3 := by
  obtain ⟨junk, isData⟩ := known.data
  obtain ⟨long, ihl⟩ := known.hasHeader
  have total := known.total
  have isTlen := known.isTlen
  have isTrimmed := trimmed known.isLength known.isTlen ngroup junk
  have checked := known.dvd (Nat.zero_lt_succ _ : 0 < 2 ^ 24)
  have isDone : ¬(tlen = 0 ∨ ngroup = 0) := fun
    | .inl empty => by omega
    | .inr empty => known.some empty
  rw [Nat.zero_add, Nat.zero_add, headed_append known.isLength] at checked
  have ipLong (value : Nat) : (putBe16 packet.ip 2 value).length = packet.ip.length :=
    length_putBe16 ..
  have fits : (tlen + packet.ip.length) % 2 ^ 16 = tlen + packet.ip.length :=
    Nat.mod_eq_of_lt (by omega)
  unfold ipv4SkbRebuild
  rw [if_neg isDone, if_neg (by decide), isData, isTrimmed]
  dsimp only
  rw [headed_append known.isLength, ← ihl, fits]
  refine ⟨_, rfl, List.drop_left' (length_headed known.isLength _),
    headed_number known.isLength known.few _, ?_, ?_,
    checked⟩
  · dsimp only
    rw [be16At_put_other (by decide), be16At_put_other (by decide),
      be16At_put (by omega) (by omega), length_putBe16,
      length_putBe16, length_putBe16, List.length_append, length_headed known.isLength]
    omega
  · have checkedIp := @dvd_checksum (putBe16 packet.ip 2 (tlen + packet.ip.length)) 5 0
      (putBe16_small known.ip 2 _) (by rw [ipLong]; omega) (by rw [ipLong]; omega) (by decide)
    rw [Nat.zero_add, Nat.zero_add] at checkedIp
    dsimp only
    rw [List.take_of_length_le (by rw [length_putBe16, ipLong])]
    exact checkedIp

theorem pseudoSum_lt (small : ∀ byte ∈ ip, byte < 256) {len : Nat} (short : len < 2 ^ 16) :
    pseudoSum ip len < 2 ^ 24 := by
  have bound := @wordsSum_le ((ip.drop 8).take 32) fun byte member =>
    small byte (List.mem_of_mem_drop (List.mem_of_mem_take member))
  have length : ((ip.drop 8).take 32).length ≤ 32 := List.length_take_le ..
  unfold pseudoSum
  omega

/-- **`mc_ipv6_skb_rebuild`** counts on 8 bytes of extension headers. -/
theorem ipv6SkbRebuild_eq (known : Trimmed .mld2 packet header rest tlen ngroup) :
    ∃ new, ipv6SkbRebuild true packet tlen ngroup = some new ∧ new.data.drop 8 = rest ∧
    be16At new.data 6 = ngroup ∧
      (new.Right .mld2 ↔ packet.ip.length = 48) := by
  obtain ⟨junk, isData⟩ := known.data
  have long : 48 ≤ packet.ip.length := known.hasHeader
  have total := known.total
  have isTlen := known.isTlen
  have isTrimmed := trimmed known.isLength known.isTlen ngroup junk
  have fits : (tlen + 8) % 2 ^ 16 = tlen + 8 := Nat.mod_eq_of_lt (by omega)
  have checked := known.dvd
    (@pseudoSum_lt (putBe16 packet.ip 4 (tlen + 8)) (putBe16_small known.ip 4 _) tlen (by omega))
  have isDone : ¬(tlen = 0 ∨ ngroup = 0) := fun
    | .inl empty => by omega
    | .inr empty => known.some empty
  rw [headed_append known.isLength] at checked
  unfold ipv6SkbRebuild
  rw [if_neg isDone, if_neg (by decide), isData, isTrimmed]
  dsimp only
  rw [fits, headed_append known.isLength]
  refine ⟨_, rfl, List.drop_left' (length_headed known.isLength _),
    headed_number known.isLength known.few _, ?_⟩
  generalize complement _ = check at checked ⊢
  have isLength : (headed header ngroup check ++ rest).length = tlen := by
    rw [List.length_append, length_headed known.isLength, isTlen]
  unfold Packet.Right
  dsimp only
  rw [be16At_put (by omega) (by omega), length_putBe16, isLength]
  constructor
  · rintro ⟨lengths, -⟩
    omega
  · intro fixed
    exact ⟨by omega, checked⟩

/-- Both. -/
theorem Version.skbRebuild_eq (known : Trimmed version packet header rest tlen ngroup) :
    ∃ new, version.skbRebuild true packet tlen ngroup = some new ∧ new.data.drop 8 = rest ∧
    be16At new.data 6 = ngroup ∧
      (new.Right version ↔ (version = .mld2 → packet.ip.length = 48)) := by
  cases version with
  | igmp3 =>
    obtain ⟨new, isNew, data, number, right⟩ := ipv4SkbRebuild_eq known
    exact ⟨new, isNew, data, number, fun _ isMld2 => (nomatch isMld2), fun _ => right⟩
  | mld2 =>
    obtain ⟨new, isNew, data, number, right⟩ := ipv6SkbRebuild_eq known
    exact ⟨new, isNew, data, number, fun isRight _ => right.mp isRight, fun fixed =>
      right.mpr (fixed rfl)⟩

/-- There is a new report only if some records are left and the rest of the old one is cut off. -/
theorem Version.skbRebuild_some {trims : Bool} {new : Packet}
    (isNew : version.skbRebuild trims packet tlen ngroup = some new) : trims = true ∧
        ngroup ≠ 0 := by
  have noRecord (none : ngroup = 0) : version.skbRebuild trims packet tlen ngroup =
      Option.none := by
    cases version with
    | igmp3 => exact if_pos (.inr none)
    | mld2 => exact if_pos (.inr none)
  refine ⟨?_, fun none => by rw [noRecord none] at isNew; cases isNew⟩
  cases trims with
  | true => rfl
  | false =>
    have uncut : version.skbRebuild false packet tlen ngroup = Option.none := by
      cases version with
      | igmp3 => exact ite_self _
      | mld2 => exact ite_self _
    rw [uncut] at isNew
    cases isNew

/-! ### The whole report -/

variable {trims : Bool} {outcome : Nat → Outcome}

/-- The loop over a report whose records exactly fill the payload. -/
theorem Holds.edited_eq (holds : Holds version packet grecs) (outcome : Nat → Outcome) :
    ∃ edit header, edited version outcome packet = some edit ∧
    edit.processed = grecs.map Grec.bytes ∧
      edit.rebuild = editsOf outcome 0 grecs ∧ edit.ngroup = (leftOf outcome 0 grecs).length ∧
      (edit.ngroup ≠ 0 →
        Trimmed version ⟨packet.ip, edit.data⟩ header
            (encodeAll (leftOf outcome 0 grecs)) edit.tlen edit.ngroup) := by
  obtain ⟨header, isLength, isNumber, isData⟩ := holds.data
  have number : be16At packet.data 6 = grecs.length := by
    rw [isData, be16At_append (by rw [isLength]; decide), isNumber]
  have long : ¬packet.data.length < 8 := by
    rw [isData, List.length_append, isLength]
    omega
  have pulled : version.format.pulled ≤ version.format.grec := by
    cases version <;> decide
  have isAt : Edit.At packet.data.length ⟨packet.data, 8, 8, packet.data.length, grecs.length,
    false, []⟩ header
      grecs :=
    ⟨⟨[], by rw [List.append_nil, isData]⟩, isLength.symm, isLength.symm, by
      rw [isData, List.length_append], rfl⟩
  obtain ⟨edit, isLoop, at', ngroup, rebuild, processed⟩ :=
    editLoop_eq outcome 0 isAt holds.fits pulled (Nat.le_refl _)
  obtain ⟨junk, isEdited⟩ := at'.data
  have isTlen := at'.tlen
  have isTotal := at'.total
  have isNgroup : edit.ngroup = (leftOf outcome 0 grecs).length := by
    dsimp only at ngroup
    omega
  have nothing : encodeAll [] = [] := rfl
  rw [nothing, List.nil_append, List.append_assoc] at isEdited
  rw [nothing, List.length_append, isLength, List.length_nil, Nat.add_zero] at isTlen
  have fewer : edit.tlen ≤ packet.data.length := by
    rw [← isTotal, isEdited, isTlen, List.length_append, List.length_append, isLength]
    omega
  have total := holds.total
  have few := holds.number
  have le := length_leftOf_le outcome 0 grecs
  obtain ⟨ipSmall, dataSmall⟩ := List.forall_mem_append.mp holds.bytes
  rw [isData] at dataSmall
  obtain ⟨headerSmall, grecsSmall⟩ := List.forall_mem_append.mp dataSmall
  refine ⟨edit, header, ?_, processed, rebuild, isNgroup, fun some' => ?_⟩
  · unfold edited
    rw [if_neg long, number]
    exact isLoop
  · exact ⟨isLength, ⟨junk, isEdited⟩, isTlen, by omega, some', ipSmall,
      List.forall_mem_append.mpr ⟨headerSmall, leftOf_small outcome 0 grecsSmall⟩, by
        dsimp only; omega, holds.ip⟩

theorem report_of {edit : Edit} (isEdited : edited version outcome packet = some edit)
    (rebuild : edit.rebuild = true) :
    report version trims outcome packet = version.skbRebuild trims
        ⟨packet.ip, edit.data⟩ edit.tlen edit.ngroup := by
  unfold report
  rw [isEdited]
  exact if_pos rebuild

/-- The payload length of an MLDv2 report is right only behind 8 bytes of extension headers. -/
theorem WellFormed.length_ip (wellFormed : WellFormed .mld2 true outcome packet grecs)
    (holds : Holds .mld2 packet grecs)
    (edits : editsOf outcome 0 grecs = true) (isLeft : leftOf outcome 0 grecs ≠ []) :
        packet.ip.length = 48 := by
  obtain ⟨edit, header, isEdited, -, rebuild, ngroup, known⟩ := holds.edited_eq outcome
  have some' : edit.ngroup ≠ 0 := by
    rw [ngroup]
    exact fun none => isLeft (List.length_eq_zero_iff.mp none)
  obtain ⟨new, isNew, -, -, right⟩ := Version.skbRebuild_eq (known some')
  obtain ⟨-, -, isRight⟩ :=
    wellFormed.2 edits new ((report_of isEdited (rebuild.trans edits)).trans isNew)
  exact right.mp isRight rfl

/-- **A report is well formed** in the end, but for an MLDv2 report behind more than 8 bytes of
extension headers. -/
theorem wellFormed_iff (holds : Holds version packet grecs) :
    WellFormed version trims outcome packet grecs ↔
      (version = .mld2 → editsOf outcome 0 grecs = true → leftOf outcome 0 grecs ≠ [] →
        trims = true →
        packet.ip.length = 48) := by
  obtain ⟨edit, header, isEdited, processed, rebuild, ngroup, known⟩ := holds.edited_eq outcome
  have once : ∃ edit, edited version outcome packet = some edit ∧
      edit.processed = grecs.map Grec.bytes :=
    ⟨edit, isEdited, processed⟩
  constructor
  · rintro wellFormed rfl edits isLeft rfl
    exact wellFormed.length_ip holds edits isLeft
  · intro fixed
    refine ⟨once, fun edits new isNew => ?_⟩
    rw [report_of isEdited (rebuild.trans edits)] at isNew
    obtain ⟨rfl, some'⟩ := Version.skbRebuild_some isNew
    obtain ⟨new', isNew', data, number, right⟩ := Version.skbRebuild_eq (known some')
    obtain rfl := Option.some.inj (isNew.symm.trans isNew')
    refine ⟨data, number.trans ngroup, right.mpr fun isMld2 => ?_⟩
    refine fixed isMld2 edits (fun none => some' ?_) rfl
    rw [ngroup, none]
    rfl

/-- A report of two records behind an IPv4 header with options. -/
def igmp3Grecs : List Grec :=
    [⟨[3, 0], [239, 1, 1, 1], [[10, 0, 0, 1], [10, 0, 0, 2]]⟩, ⟨[3, 0], [239, 1, 1, 2], []⟩]

def igmp3Packet : Packet :=
    ⟨70 :: List.replicate 23 0, [34, 0, 0, 0, 0, 0, 0, 2] ++ encodeAll igmp3Grecs⟩

/-- A source of the first record and the second record are suppressed. -/
def igmp3Outcome (i : Nat) : Outcome := if i = 0 then .sources (· == [10, 0, 0, 1]) else .whole

theorem igmp3_edited : leftOf igmp3Outcome 0 igmp3Grecs =
    [⟨[3, 0], [239, 1, 1, 1], [[10, 0, 0, 2]]⟩] ∧
    WellFormed .igmp3 true igmp3Outcome igmp3Packet igmp3Grecs := by
  have holds : Holds .igmp3 igmp3Packet igmp3Grecs :=
    { fits := List.forall_mem_cons.mpr ⟨⟨rfl, rfl, by decide, by decide⟩,
        List.forall_mem_singleton.mpr ⟨rfl, rfl, by decide, by decide⟩⟩
      data := ⟨_, rfl, rfl, rfl⟩
      number := by decide
      bytes := by decide
      total := by decide
      ip := ⟨by decide, rfl⟩ }
  exact ⟨rfl, (wellFormed_iff holds).mpr fun isMld2 => nomatch isMld2⟩

/-- A report of two records behind 16 bytes of extension headers. -/
def mld2Grecs : List Grec :=
    [⟨[3, 0], List.replicate 16 255, []⟩, ⟨[3, 0], List.replicate 16 254, []⟩]

def mld2Packet : Packet := ⟨List.replicate 56 0, [143, 0, 0, 0, 0, 0, 0, 2] ++ encodeAll mld2Grecs⟩

/-- The first record is suppressed, and the payload length comes out too small. -/
theorem mld2_misstated :
    ¬∀ (version : Version) (trims : Bool) (outcome : Nat → Outcome) (packet : Packet)
    (grecs : List Grec),
      Holds version packet grecs → WellFormed version trims outcome packet grecs := by
  intro claim
  have holds : Holds .mld2 mld2Packet mld2Grecs :=
    { fits := List.forall_mem_cons.mpr ⟨⟨rfl, rfl, by decide, by decide⟩,
        List.forall_mem_singleton.mpr ⟨rfl, rfl, by decide, by decide⟩⟩
      data := ⟨_, rfl, rfl, rfl⟩
      number := by decide
      bytes := by decide
      total := by decide
      ip := Nat.le_of_ble_eq_true rfl }
  have wellFormed := claim .mld2 true (fun i => if i = 0 then .whole else .keep) mld2Packet
    mld2Grecs holds
  have length : mld2Packet.ip.length = 48 := wellFormed.length_ip holds rfl (List.cons_ne_nil _ _)
  exact absurd length (by decide)

end Qsdk.ReportEdit
