/-
**The connected BSS in the ageing of the scan cache.**

`scm_age_out_entries` spares the entries whose `trans_bssid` is that of the connected one. In the
beacon parser only a beacon with the Multiple BSSID element fills the field in; for all others it is
zero, on both sides of the comparison. So a connected BSS outside of any set spares all entries that
are outside of one. Ageing does what it is for exactly when none of those is old (`spares_iff`).
-/

import Qsdk.Umac.ScanCalls

set_option linter.unusedSectionVars false

namespace Qsdk.ScanCache

/-! ### The transmitting BSSID -/

/-- The beacon of an entry in `util_scan_parse_beacon_frame`: one without the Multiple BSSID
element, the one of the transmitting BSS, or one whose profile `util_handle_nontx_prof` takes from
the beacon of another BSSID. -/
inductive Origin
  | plain
  | transmitting
  | profile (transmitter : BitVec 48)
deriving DecidableEq

/-- The multiple-BSSID set, by its transmitting BSSID. -/
def Origin.set (bssid : BitVec 48) : Origin → Option (BitVec 48)
  | .plain => none
  | .transmitting => some bssid
  | .profile transmitter => some transmitter

/-- What `mbssid_info.trans_bssid` is filled in with. -/
def Origin.transBssid (bssid : BitVec 48) : Origin → BitVec 48
  | .plain => 0
  | .transmitting => bssid
  | .profile transmitter => transmitter

theorem Origin.transBssid_eq (bssid : BitVec 48) (origin : Origin) :
    origin.transBssid bssid = (origin.set bssid).getD 0 := by
  cases origin <;> rfl

variable {db db' : Scans} {refs : List Nat} {now agingTime : BitVec 64} {origin : Nat → Origin}

namespace Scans

/-- The set of an entry. -/
def setOf (origin : Nat → Origin) (x : Nat × ScanEntry) : Option (BitVec 48) :=
    (origin x.1).set x.2.bssid

/-- The beacon parser has filled the entries in. -/
def FilledIn (db : Scans) (origin : Nat → Origin) : Prop :=
  ∀ x ∈ db.entries, x.2.transBssid = (origin x.1).transBssid x.2.bssid

/-- At most one entry is marked associated. -/
def OneConnected (db : Scans) : Prop :=
  ∀ x ∈ db.entries, ∀ y ∈ db.entries, x.2.assocState = true → y.2.assocState = true → x = y

/-- The entry is of the same set as the connected BSS. -/
def WithConnected (db : Scans) (origin : Nat → Origin) (x : Nat × ScanEntry) : Prop :=
  ∃ conn ∈ db.entries, conn.2.assocState = true ∧ setOf origin x ≠ none ∧
    setOf origin x = setOf origin conn

/-- **Ageing spares the connected BSS and nothing else.** -/
def Spares (db : Scans) (origin : Nat → Origin) (now agingTime : BitVec 64) : Prop :=
  ∃ db', db.ageOutEntries now agingTime = some db' ∧ ∀ x, x ∈ db'.entries ↔
    x ∈ db.entries ∧ (x.2.age now < agingTime ∨ x.2.assocState = true ∨ db.WithConnected origin x)

/-- Beside a connected BSS with a zero `trans_bssid` there is no other old entry with one, unless
the two are of one set. -/
def NoOldPlain (db : Scans) (origin : Nat → Origin) (now agingTime : BitVec 64) : Prop :=
  ∀ conn ∈ db.entries, conn.2.assocState = true → ∀ x ∈ db.entries, x ≠ conn →
    conn.2.transBssid = 0 → x.2.transBssid = 0 →
    (setOf origin conn = none ∨ setOf origin x = none) →
      x.2.age now < agingTime

/-! ### Ageing -/

/-- Nodes deleted one by one: the others stay. -/
theorem deleteAll_entries {xs : List (Nat × ScanEntry)} (exact : db.Exact [])
    (listed : ∀ x ∈ xs, x ∈ db.entries) (once : (xs.map Prod.fst).Nodup) :
    ∃ db', db.deleteAll xs = some db' ∧ ∀ x, x ∈ db'.entries ↔ x ∈ db.entries ∧
        x.1 ∉ xs.map Prod.fst := by
  induction xs generalizing db with
  | nil => exact ⟨db, rfl, fun x => by simp⟩
  | cons x xs ih =>
    have linked := (exact.linked_of_entries (listed x List.mem_cons_self)).1
    obtain ⟨between, deleted, exactBetween, entries, _⟩ := delete_spec exact linked
    have stays : ∀ y, y ∈ between.entries ↔ y ∈ db.entries ∧ y.1 ≠ x.1 := by
      intro y
      rw [entries, List.mem_filter, decide_eq_true_eq]
    rw [List.map_cons, List.nodup_cons] at once
    obtain ⟨db', rest, left⟩ := ih exactBetween (fun y member => (stays y).mpr
      ⟨listed y (List.mem_cons_of_mem _ member), fun same =>
        once.1 (same ▸ List.mem_map_of_mem member)⟩) once.2
    refine ⟨db', ?_, fun y => ?_⟩
    · unfold deleteAll
      rw [deleted]
      exact rest
    · rw [left, stays, List.map_cons, List.mem_cons, not_or, and_assoc]

/-- A loop that deletes what it picks. -/
theorem deleteSome_entries (exact : db.Exact []) (pick : Nat × ScanEntry → Bool) :
    ∃ db', db.deleteAll (db.inOrder.filter pick) = some db' ∧
      ∀ x, x ∈ db'.entries ↔ x ∈ db.entries ∧ pick x = false := by
  obtain ⟨db', deleted, left⟩ := deleteAll_entries exact
    (fun _ member => mem_inOrder.mp (List.mem_of_mem_filter member))
    ((inOrder_nodup exact).sublist ((List.filter_sublist (p := pick)).map _))
  refine ⟨db', deleted, fun x => (left x).trans (and_congr_right fun member => ?_)⟩
  rw [← Bool.not_eq_true]
  refine not_congr ⟨fun picked => ?_, fun picked =>
    List.mem_map_of_mem (List.mem_filter.mpr ⟨mem_inOrder.mpr member, picked⟩)⟩
  obtain ⟨y, isY, same⟩ := List.mem_map.mp picked
  obtain ⟨listed, picked⟩ := List.mem_filter.mp isY
  rwa [← List.inj_on_of_nodup_map exact.entries_nodup (mem_inOrder.mp listed) member same]

/-- **What ageing leaves:** the young, and all with the `trans_bssid` of the connected node. -/
theorem ageOutEntries_spec (exact : db.Exact []) (one : db.OneConnected) :
    ∃ db', db.ageOutEntries now agingTime = some db' ∧ ∀ x, x ∈ db'.entries ↔
      x ∈ db.entries ∧ (x.2.age now < agingTime ∨
        ∃ conn ∈ db.entries, conn.2.assocState = true ∧ conn.2.transBssid = x.2.transBssid) := by
  refine (deleteSome_entries exact _).imp fun db' spec =>
    ⟨spec.1, fun x => (spec.2 x).trans (and_congr_right fun _ => ?_)⟩
  rw [Bool.and_eq_false_iff, decide_eq_false_iff_not, BitVec.not_le, or_comm]
  refine or_congr_right ?_
  cases found : db.inOrder.find? fun x => x.2.assocState with
  | none =>
    refine iff_of_false (by simp) fun ⟨conn, member, connected, _⟩ => ?_
    exact List.find?_eq_none.mp found conn (mem_inOrder.mpr member) connected
  | some conn =>
    have member := mem_inOrder.mp (List.mem_of_find?_eq_some found)
    have connected := List.find?_some found
    dsimp only
    rw [decide_eq_false_iff_not, not_not]
    refine ⟨fun same => ⟨conn, member, connected, same⟩, fun ⟨other, isOther, marked, same⟩ => ?_⟩
    rw [one conn member other isOther connected marked]
    exact same

/-- Two of one set have the same `trans_bssid`. -/
theorem FilledIn.transBssid_eq (filled : db.FilledIn origin) {x y : Nat × ScanEntry}
    (isX : x ∈ db.entries) (isY : y ∈ db.entries) (same : setOf origin x = setOf origin y) :
        x.2.transBssid = y.2.transBssid := by
  rw [filled x isX, filled y isY, Origin.transBssid_eq, Origin.transBssid_eq]
  exact congrArg (fun set => set.getD 0) same

/-- Two with the same `trans_bssid` are of one set, or one of them is of none and both fields are
zero. -/
theorem FilledIn.sameSet_or (filled : db.FilledIn origin) {x y : Nat × ScanEntry}
    (isX : x ∈ db.entries) (isY : y ∈ db.entries) (same : x.2.transBssid = y.2.transBssid) :
    (setOf origin y ≠ none ∧ setOf origin y = setOf origin x) ∨
      (x.2.transBssid = 0 ∧ y.2.transBssid = 0 ∧
          (setOf origin x = none ∨ setOf origin y = none)) := by
  have fieldX : x.2.transBssid = (setOf origin x).getD 0 :=
    (filled x isX).trans (Origin.transBssid_eq _ _)
  have fieldY : y.2.transBssid = (setOf origin y).getD 0 :=
    (filled y isY).trans (Origin.transBssid_eq _ _)
  cases setX : setOf origin x with
  | none =>
    rw [setX] at fieldX
    exact .inr ⟨fieldX, same.symm.trans fieldX, .inl rfl⟩
  | some first =>
    cases setY : setOf origin y with
    | none =>
      rw [setY] at fieldY
      exact .inr ⟨same.trans fieldY, fieldY, .inr rfl⟩
    | some second =>
      rw [setX, Option.getD_some] at fieldX
      rw [setY, Option.getD_some] at fieldY
      exact .inl ⟨Option.some_ne_none _, congrArg some (fieldY.symm.trans (same.symm.trans fieldX))⟩

/-- **Ageing spares the connected BSS and nothing else exactly when no old entry shares its zero
`trans_bssid`.** -/
theorem spares_iff (exact : db.Exact []) (one : db.OneConnected) (filled : db.FilledIn origin) :
    db.Spares origin now agingTime ↔ db.NoOldPlain origin now agingTime := by
  obtain ⟨db', ran, left⟩ := @ageOutEntries_spec _ now agingTime exact one
  constructor
  · rintro ⟨other, ran', spares⟩ conn isConn connected x isX apart zeroConn zeroX plain
    obtain rfl := Option.some.inj (ran.symm.trans ran')
    have stays := (left x).mpr ⟨isX, .inr ⟨conn, isConn, connected, zeroConn.trans zeroX.symm⟩⟩
    rcases ((spares x).mp stays).2 with young | marked | ⟨other, isOther, marked, notNone, sameSet⟩
    · exact young
    · exact absurd (one x isX conn isConn marked connected) apart
    · rw [one other isOther conn isConn marked connected] at sameSet
      rcases plain with noSet | noSet
      · exact absurd (sameSet.trans noSet) notNone
      · exact absurd noSet notNone
  · intro noOld
    refine ⟨db', ran, fun x => (left x).trans (and_congr_right fun isX => ?_)⟩
    constructor
    · rintro (young | ⟨conn, isConn, connected, same⟩)
      · exact .inl young
      by_cases apart : x = conn
      · exact .inr (.inl (apart ▸ connected))
      · rcases filled.sameSet_or isConn isX same with ⟨notNone, sameSet⟩ | ⟨zeroConn, zeroX, plain⟩
        · exact .inr (.inr ⟨conn, isConn, connected, notNone, sameSet⟩)
        · exact .inl (noOld conn isConn connected x isX apart zeroConn zeroX plain)
    · rintro (young | marked | ⟨conn, isConn, connected, _, sameSet⟩)
      · exact .inl young
      · exact .inr ⟨x, isX, marked, rfl⟩
      · exact .inr ⟨conn, isConn, connected, filled.transBssid_eq isConn isX sameSet.symm⟩

/-- A cache of plain BSSs, of which the first is connected, at time 0. -/
def plainPair : Scans :=
  let plain (bssid : BitVec 48) (connected : Bool) : ScanEntry :=
    { ibssBeacon bssid with ess := true, ibss := false, assocState := connected, transBssid := 0 }
  { nodes := [⟨0, plain 1 true, 1, true⟩, ⟨1, plain 2 false, 1, true⟩], numEntries := 2, freed :=
    [], nextId := 2 }

theorem plainPair_exact : plainPair.Exact [] where
  numEntries := rfl
  refCnt := by decide
  positive := by decide
  held := by decide
  once := List.Perm.refl _

theorem plainPair_oneConnected : plainPair.OneConnected := by
  unfold OneConnected
  decide

theorem plainPair_filledIn : plainPair.FilledIn fun _ => .plain := by
  unfold FilledIn
  decide

/-- The second is of no set, and old: it stays. -/
theorem plainPair_not_spares : ¬ plainPair.Spares (fun _ => .plain) 40000 30000 := by
  rintro ⟨db', ran, spares⟩
  obtain rfl :=
    Option.some.inj
    (ran.symm.trans (show plainPair.ageOutEntries 40000 30000 = some plainPair from rfl))
  have stays := (spares (plainPair.entries.getLast (by decide))).mp (by decide)
  rcases stays.2 with young | marked | ⟨conn, _, _, notNone, _⟩
  · exact absurd young (by decide)
  · exact absurd marked (by decide)
  · exact notNone rfl

/-- As long as the second is young, the ageing is right. -/
theorem plainPair_spares : plainPair.Spares (fun _ => .plain) 20000 30000 := by
  refine (spares_iff plainPair_exact plainPair_oneConnected plainPair_filledIn).mpr ?_
  have young : ∀ x ∈ plainPair.entries, x.2.age 20000 < 30000 := by decide
  exact fun _ _ _ x isX _ _ _ _ => young x isX

end Scans

end Qsdk.ScanCache
