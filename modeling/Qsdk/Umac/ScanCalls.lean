/-
**One entry per network.**

`scm_add_update_entry`, ageing and flushing, each running alone: a loop over the cache then comes
down to what it looks for. The cache never grows over `MAX_SCAN_CACHE_SIZE`, an added entry is there
afterwards, and a call that fails leaves all entries but the evicted one as they were. That no two
entries match each other holds only under a condition on the frames (`one_per_network_iff`). The
search for the entry to replace looks in the bucket of the frame's BSSID, where an entry of the same
IBSS with another BSSID need not be (`two_of_one_ibss`), and stops at the first entry that matches,
where a hidden SSID that is not filled in matches several (`Scans.Clear`).
-/

import Qsdk.Umac.ScanEntries

set_option linter.unusedSectionVars false

namespace Qsdk.ScanCache

/-! ### Entries -/

/-- `MGMT_SUBTYPE_BEACON` and `MGMT_SUBTYPE_PROBE_RESP`. -/
inductive FrameSubtype
  | beacon
  | probeResp
deriving DecidableEq

/-- `struct scan_cache_entry`, as far as matching, ageing and the copying from the old entry read
it. -/
structure ScanEntry where
  bssid : BitVec 48
  ssid : List (BitVec 8)
  ess : Bool
  ibss : Bool
  chanFreq : Nat
  frmSubtype : FrameSubtype
  isHiddenSsid : Bool
  hiddenSsidTimestamp : BitVec 64
  scanEntryTime : BitVec 64
  rssiRaw : Int
  htinfo : Bool
  dsParam : Bool
  channelMismatch : Bool
  assocState : Bool
  transBssid : BitVec 48
deriving DecidableEq

/-- `MAX_SCAN_CACHE_SIZE`, `HIDDEN_SSID_TIME` and `ADJACENT_CHANNEL_RSSI_THRESHOLD`. -/
def maxScanCacheSize : Nat := 1024

def hiddenSsidTime : BitVec 64 := 0xFFFFFFFF

def adjacentChannelRssiThreshold : Int := -80

namespace ScanEntry

/-- `SCAN_GET_HASH`: the last octet. -/
def hash (entry : ScanEntry) : Nat := entry.bssid.toNat % 256 % 64

/-- `util_scan_is_null_ssid`. -/
def isNullSsid (ssid : List (BitVec 8)) : Bool :=
  match ssid with
  | [] => true
  | first :: _ => decide (first = 0) || ssid.all fun octet =>
    decide (octet = 0x20) || decide (octet = 0)

/-- `util_is_scan_entry_match`. -/
def matches' (entry1 entry2 : ScanEntry) : Bool :=
  if entry1.ess ≠ entry2.ess then false
  else if entry1.ess && decide (entry1.bssid = entry2.bssid) then
    decide (entry1.ssid = entry2.ssid) || isNullSsid entry1.ssid || isNullSsid entry2.ssid
  else if entry1.ibss && decide (entry1.chanFreq = entry2.chanFreq) then
    decide (entry1.ssid = entry2.ssid)
  else !entry1.ibss && !entry1.ess && decide (entry1.bssid = entry2.bssid)

/-- `util_scan_entry_age`. -/
def age (now : BitVec 64) (entry : ScanEntry) : BitVec 64 := now - entry.scanEntryTime

/-- `scm_copy_info_from_dup_entry`, less what nothing here reads. -/
def copyInfoFromDupEntry (now : BitVec 64) (params old : ScanEntry) : ScanEntry :=
  let params := if params.frmSubtype = .probeResp ∧ old.isHiddenSsid = true then
    { params with isHiddenSsid := true }
    else params
  let params :=
    if isNullSsid params.ssid = true ∧ old.ssid ≠ [] ∧ now - old.hiddenSsidTimestamp ≤
        hiddenSsidTime then
      { params with ssid := old.ssid, hiddenSsidTimestamp := old.hiddenSsidTimestamp }
    else params
  let params :=
    if params.frmSubtype = .beacon ∧ params.htinfo = false ∧ params.dsParam = false ∧
      params.chanFreq ≠ old.chanFreq ∧
        params.rssiRaw < adjacentChannelRssiThreshold then
      { params with chanFreq := old.chanFreq, channelMismatch := true }
    else params
  let params := if params.channelMismatch then { params with rssiRaw := old.rssiRaw } else params
  { params with assocState := old.assocState }

end ScanEntry

/-! ### Calls -/

/-- The scan cache. -/
abbrev Scans := ScanDb ScanEntry

namespace Scans

/-- The active nodes in the order of a loop over the buckets. -/
def inOrder (db : Scans) : List (Nat × ScanEntry) :=
  (List.range 64).flatMap fun bucket => db.entries.filter fun x => decide (x.2.hash = bucket)

/-- `scm_find_duplicate`: the first match in the bucket. -/
def findDuplicate (db : Scans) (entry : ScanEntry) : Option (Nat × ScanEntry) :=
  db.entries.find? fun x => decide (x.2.hash = entry.hash) && entry.matches' x.2

/-- The older of two, the first if they are of the same age. -/
def older (now : BitVec 64) (oldest : Option (Nat × ScanEntry)) (x : Nat × ScanEntry) :
    Option (Nat × ScanEntry) :=
  match oldest with
  | none => some x
  | some old => if old.2.age now < x.2.age now then some x else some old

/-- The node that `scm_flush_oldest_entry` finds. -/
def oldestNode (db : Scans) (now : BitVec 64) : Option (Nat × ScanEntry) :=
    db.inOrder.foldl (older now) none

/-- A node that a loop holds is deleted, and given back. -/
def delete (db : Scans) (id : Nat) : Option Scans :=
  (db.getRef id).bind fun db => (db.entryDel id).bind fun db => db.putRef id

/-- `scm_flush_oldest_entry`. -/
def flushOldestEntry (db : Scans) (now : BitVec 64) : Option Scans :=
  match db.oldestNode now with
  | none => some db
  | some oldest => db.delete oldest.1

/-- The entry that is added for a frame. -/
def entryFor (db : Scans) (now : BitVec 64) (frame : ScanEntry) : ScanEntry :=
  match db.findDuplicate frame with
  | none => frame
  | some dup => ScanEntry.copyInfoFromDupEntry now frame dup.2

/-- The duplicate is held from when it is found. -/
def holdDuplicate (db : Scans) : Option Nat → Option Scans
  | none => some db
  | some id => db.getRef id

/-- The duplicate is deleted, and given back. -/
def delDuplicate (db : Scans) : Option Nat → Option Scans
  | none => some db
  | some id => (db.entryDel id).bind fun db => db.putRef id

/-- `scm_add_update_entry`; says whether the entry is added. -/
def addUpdateEntry (db : Scans) (now : BitVec 64) (memory : Bool) (frame : ScanEntry) :
    Option (Scans × Bool) :=
  let dup := (db.findDuplicate frame).map Prod.fst
  let entry := db.entryFor now frame
  (db.holdDuplicate dup).bind fun db : Scans =>
    (if db.numEntries ≥ maxScanCacheSize then db.flushOldestEntry now else some db).bind
        fun db : Scans =>
      if memory then ((db.addScanNode entry dup).bind fun db : Scans => db.delDuplicate dup).map
        fun db => (db, true)
      else (db.putRefIf dup).map fun db => (db, false)

/-- A loop that deletes the nodes picked. -/
def deleteAll (db : Scans) : List (Nat × ScanEntry) → Option Scans
  | [] => some db
  | x :: xs => (db.delete x.1).bind fun db : Scans => db.deleteAll xs

/-- `scm_age_out_entries`: the entries of the connected node's MBSSID stay. -/
def ageOutEntries (db : Scans) (now agingTime : BitVec 64) : Option Scans :=
  let connNode := db.inOrder.find? fun x => x.2.assocState
  db.deleteAll (db.inOrder.filter fun x =>
    (match connNode with
      | none => true
      | some conn => decide (conn.2.transBssid ≠ x.2.transBssid)) &&
        decide (agingTime ≤ x.2.age now))

/-- `scm_flush_scan_entries`, with the filter. -/
def flushScanEntries (db : Scans) (filter : ScanEntry → Bool) : Option Scans :=
  db.deleteAll (db.inOrder.filter fun x => filter x.2)

end Scans

/-- A call. -/
inductive Call
  | add (now : BitVec 64) (memory : Bool) (frame : ScanEntry)
  | ageOut (now agingTime : BitVec 64)
  | flush (filter : ScanEntry → Bool)

/-- A call running alone. It has no result when it touches a freed node. -/
def Call.run (db : Scans) : Call → Option (Scans × Bool)
  | .add now memory frame => db.addUpdateEntry now memory frame
  | .ageOut now agingTime => (db.ageOutEntries now agingTime).map fun db => (db, true)
  | .flush filter => (db.flushScanEntries filter).map fun db => (db, true)

/-- What every call of a run meets. -/
def Call.Along (meets : Scans → Call → Prop) (db : Scans) : List Call → Prop
  | [] => True
  | call :: calls => meets db call ∧ ∀ db' done, call.run db = some (db', done) →
    Call.Along meets db' calls

/-- No two active entries match each other. -/
def Scans.OnePerNetwork (db : Scans) : Prop :=
  ∀ a ∈ db.entries, ∀ b ∈ db.entries, a.1 ≠ b.1 → a.2.matches' b.2 = false

/-- The node that a call evicts. -/
def Scans.evicted (db : Scans) (now : BitVec 64) : Option Nat :=
  if db.numEntries ≥ maxScanCacheSize then (db.oldestNode now).map Prod.fst else none

/-- A call does what it is for. -/
structure Proper (db : Scans) (call : Call) : Prop where
  safe : call.run db ≠ none
  network : ∀ db' done, call.run db = some (db', done) → db'.OnePerNetwork
  bounded : ∀ db' done, call.run db = some (db', done) → db'.numEntries ≤ maxScanCacheSize
  added : ∀ now memory frame db', call = .add now memory frame → call.run db = some (db', true) →
    (db.nextId, db.entryFor now frame) ∈ db'.entries
  failed : ∀ now memory frame db', call = .add now memory frame → call.run db = some (db', false) →
    db'.entries = db.entries.filter fun x => decide (some x.1 ≠ db.evicted now)

/-! ### What a frame has to meet -/

namespace ScanEntry

/-- The frame's SSID is hidden, and filled in from the entry. -/
def FillsIn (now : BitVec 64) (frame dup : ScanEntry) : Prop :=
  isNullSsid frame.ssid = true ∧ dup.ssid ≠ [] ∧ now - dup.hiddenSsidTimestamp ≤ hiddenSsidTime

/-- The frame is a weak beacon that does not tell its channel, received on another one than the
entry's. -/
def Strays (frame dup : ScanEntry) : Prop :=
  frame.frmSubtype = .beacon ∧ frame.htinfo = false ∧ frame.dsParam = false ∧
    frame.chanFreq ≠ dup.chanFreq ∧
    frame.rssiRaw < adjacentChannelRssiThreshold

instance (now : BitVec 64) (frame dup : ScanEntry) : Decidable (FillsIn now frame dup) := by
  unfold FillsIn
  infer_instance

instance (frame dup : ScanEntry) : Decidable (Strays frame dup) := by
  unfold Strays
  infer_instance

/-- A frame that replaces one entry is apart from another one with the same ESS bit. -/
structure Apart (now : BitVec 64) (frame dup x : ScanEntry) : Prop where
  /-- A hidden SSID is not the second name of a BSSID: it is filled in from the replaced entry in
  time. -/
  hidden : frame.ess = true → x.bssid = frame.bssid → dup.bssid = frame.bssid →
    isNullSsid frame.ssid = true → now - dup.hiddenSsidTimestamp ≤ hiddenSsidTime
  /-- Where the replaced entry is of another BSSID, the names on the frame's own BSSID are
  different. -/
  named : frame.ess = true → x.bssid = frame.bssid → dup.bssid ≠ frame.bssid →
    frame.ssid ≠ x.ssid ∧ isNullSsid frame.ssid = false ∧ isNullSsid x.ssid = false
  /-- Only stations of an IBSS share a BSSID without being one. -/
  neither : frame.ess = false → x.bssid = frame.bssid → frame.ibss = true ∧ x.ibss = true
  /-- An IBSS has another name or channel, as the frame has them or as it gets them from the
  replaced entry. -/
  ibss : (frame.ibss = true ∨ x.ibss = true) → (frame.ess = true → x.bssid ≠ frame.bssid) →
    x.ssid = (if FillsIn now frame dup then dup.ssid else frame.ssid) →
    x.chanFreq ≠ if Strays frame dup then dup.chanFreq else frame.chanFreq

end ScanEntry

namespace Scans

/-- The first active entry of the frame's bucket that the frame matches. -/
def FirstMatch (db : Scans) (frame : ScanEntry) (dup : Nat × ScanEntry) : Prop :=
  ∃ front back, db.entries = front ++ dup :: back ∧ dup.2.hash = frame.hash ∧
    frame.matches' dup.2 = true ∧
    ∀ x ∈ front, x.2.hash = frame.hash → frame.matches' x.2 = false

/-- What a frame has to meet for its network to have one entry. -/
structure Clear (db : Scans) (now : BitVec 64) (frame : ScanEntry) : Prop where
  /-- If it matches no entry of its bucket, it matches none that stays, and none matches it. -/
  new : (∀ x ∈ db.entries, x.2.hash = frame.hash → frame.matches' x.2 = false) →
    ∀ x ∈ db.entries, some x.1 ≠ db.evicted now → frame.matches' x.2 = false ∧
    x.2.matches' frame = false
  /-- If it matches one there, it is apart from all others that stay. -/
  known : ∀ dup, db.FirstMatch frame dup → ∀ x ∈ db.entries, x.1 ≠ dup.1 →
    some x.1 ≠ db.evicted now →
    x.2.ess = frame.ess → ScanEntry.Apart now frame dup.2 x.2

end Scans

/-- A frame that is added is clear of the entries. -/
def Call.Clear (db : Scans) : Call → Prop
  | .add now true frame => db.Clear now frame
  | _ => True

/-- No entry that stays matches the added one, either way. -/
def Tidy (db : Scans) (call : Call) : Prop :=
  ∀ now frame, call = .add now true frame → ∀ x ∈ db.entries,
    some x.1 ≠ (db.findDuplicate frame).map Prod.fst → some x.1 ≠ db.evicted now →
      (db.entryFor now frame).matches' x.2 = false ∧ x.2.matches' (db.entryFor now frame) = false

/-! ### Matching -/

namespace ScanEntry

theorem matches'_iff {entry1 entry2 : ScanEntry} :
    entry1.matches' entry2 = true ↔ entry1.ess = entry2.ess ∧
      if entry1.ess = true ∧ entry1.bssid = entry2.bssid then
        entry1.ssid = entry2.ssid ∨ isNullSsid entry1.ssid = true ∨ isNullSsid entry2.ssid = true
      else if entry1.ibss = true then entry1.chanFreq = entry2.chanFreq ∧ entry1.ssid = entry2.ssid
      else entry1.ess = false ∧ entry1.bssid = entry2.bssid := by
  unfold matches'
  grind

/-- What is copied from the old entry, as far as matching reads it. -/
theorem copyInfoFromDupEntry_fields (now : BitVec 64) (frame dup : ScanEntry) :
    let entry := copyInfoFromDupEntry now frame dup
    entry.ess = frame.ess ∧ entry.ibss = frame.ibss ∧ entry.bssid = frame.bssid ∧
      entry.ssid = (if FillsIn now frame dup then dup.ssid else frame.ssid) ∧
      entry.chanFreq = if Strays frame dup then dup.chanFreq else frame.chanFreq := by
  unfold copyInfoFromDupEntry FillsIn Strays
  grind

/-- **The entry for a frame that matches one entry does not match another exactly when the frame is
apart from it**, provided that the two do not match. -/
theorem apart_iff {now : BitVec 64} {frame dup x : ScanEntry} (found : frame.matches' dup = true)
    (dupX : dup.matches' x = false) (xDup : x.matches' dup = false) :
    ((copyInfoFromDupEntry now frame dup).matches' x = false ∧
      x.matches' (copyInfoFromDupEntry now frame dup) = false) ↔
      (x.ess = frame.ess → Apart now frame dup x) := by
  obtain ⟨ess, ibss, bssid, ssid, chanFreq⟩ := copyInfoFromDupEntry_fields now frame dup
  rw [← Bool.not_eq_true, matches'_iff] at dupX xDup
  rw [← Bool.not_eq_true, ← Bool.not_eq_true, matches'_iff, matches'_iff, ess, ibss, bssid,
    ssid, chanFreq]
  rw [matches'_iff] at found
  have nil : isNullSsid [] = true := rfl
  constructor
  · intro unmatched sameEss
    constructor <;> grind [FillsIn, Strays]
  · intro apart
    by_cases sameEss : x.ess = frame.ess
    · obtain ⟨hidden, named, neither, channel⟩ := apart sameEss
      grind [FillsIn, Strays]
    · grind

end ScanEntry

/-! ### What the calls do to the entries -/

section Effects

variable {db : Scans} {refs : List Nat} {id : Nat} {now : BitVec 64} {frame : ScanEntry}

theorem Scans.delete_spec (exact : db.Exact refs) (linked : id ∈ db.nodes.map (·.id)) :
    ∃ db', db.delete id = some db' ∧ db'.Exact refs ∧
      db'.entries = (db.entries.filter fun x => decide (x.1 ≠ id)) ∧ db'.nextId = db.nextId := by
  obtain ⟨held, got, exactHeld, _⟩ := exact.getRef linked
  obtain ⟨heldEntries, heldId, _⟩ := exact.getRef_entries linked got
  have stillLinked := exactHeld.held id List.mem_cons_self
  obtain ⟨cleared, deleted, exactCleared⟩ := exactHeld.entryDel stillLinked
  obtain ⟨clearedEntries, clearedId⟩ := exactHeld.entryDel_entries stillLinked deleted
  obtain ⟨db', given, exact', _⟩ := exactCleared.putRef
  obtain ⟨entries, nextId⟩ := exactCleared.putRef_entries given
  refine ⟨db', ?_, exact', ?_, ?_⟩
  · unfold Scans.delete
    rw [got, Option.bind_some, deleted, Option.bind_some, given]
  · rw [entries, clearedEntries, heldEntries]
  · rw [nextId, clearedId, heldId]

theorem Scans.holdDuplicate_spec (exact : db.Exact refs) {dup : Option Nat}
    (linked : ∀ id, dup = some id → id ∈ db.nodes.map (·.id)) :
    ∃ db', db.holdDuplicate dup = some db' ∧ db'.Exact (dup.toList ++ refs) ∧
    db'.entries = db.entries ∧
      db'.nextId = db.nextId ∧ db'.numEntries = db.numEntries := by
  cases dup with
  | none => exact ⟨db, rfl, exact, rfl, rfl, rfl⟩
  | some id =>
    obtain ⟨db', got, exact', _⟩ := exact.getRef (linked id rfl)
    exact ⟨db', got, exact', exact.getRef_entries (linked id rfl) got⟩

theorem Scans.delDuplicate_spec {dup : Option Nat} (exact : db.Exact (dup.toList ++ refs)) :
    ∃ db', db.delDuplicate dup = some db' ∧ db'.Exact refs ∧
      db'.entries = db.entries.filter fun x => decide (some x.1 ≠ dup) := by
  cases dup with
  | none => exact ⟨db, rfl, exact, (List.filter_eq_self.mpr fun x _ => by simp).symm⟩
  | some id =>
    have linked := exact.held id List.mem_cons_self
    obtain ⟨cleared, deleted, exactCleared⟩ := exact.entryDel linked
    obtain ⟨db', given, exact', _⟩ := ScanDb.Exact.putRef exactCleared
    refine ⟨db', ?_, exact', ?_⟩
    · show ((db.entryDel id).bind fun db => db.putRef id) = some db'
      rw [deleted]
      exact given
    · rw [(ScanDb.Exact.putRef_entries exactCleared given).1,
        (exact.entryDel_entries linked deleted).1]
      exact List.filter_congr fun x _ => by simp

/-- What a loop over the buckets sees is there. -/
theorem Scans.mem_inOrder {x : Nat × ScanEntry} : x ∈ db.inOrder ↔ x ∈ db.entries := by
  unfold Scans.inOrder
  simp only [List.mem_flatMap, List.mem_range, List.mem_filter, decide_eq_true_eq]
  refine ⟨fun ⟨_, _, member, _⟩ => member, fun member => ⟨x.2.hash, ?_, member, rfl⟩⟩
  unfold ScanEntry.hash
  omega

theorem Scans.foldl_older (xs : List (Nat × ScanEntry)) (oldest : Option (Nat × ScanEntry)) :
    (xs.foldl (Scans.older now) oldest = none → xs = [] ∧ oldest = none) ∧
      ∀ x, xs.foldl (Scans.older now) oldest = some x → x ∈ xs ∨ oldest = some x := by
  induction xs generalizing oldest with
  | nil => exact ⟨fun none => ⟨rfl, none⟩, fun x same => .inr same⟩
  | cons y xs ih =>
    obtain ⟨ihNone, ihSome⟩ := ih (Scans.older now oldest y)
    have either : Scans.older now oldest y = some y ∨ Scans.older now oldest y = oldest ∧
        oldest ≠ none := by
      unfold Scans.older
      cases oldest with
      | none => exact .inl rfl
      | some old =>
        dsimp only
        split
        · exact .inl rfl
        · exact .inr ⟨rfl, Option.some_ne_none old⟩
    refine ⟨fun isNone => ?_, fun x isSome => ?_⟩
    · have none := (ihNone isNone).2
      rcases either with isNew | ⟨isOld, notNone⟩
      · rw [isNew] at none
        cases none
      · exact absurd (isOld.symm.trans none) notNone
    · rcases ihSome x isSome with member | same
      · exact .inl (List.mem_cons_of_mem _ member)
      · rcases either with isNew | ⟨isOld, _⟩
        · rw [isNew] at same
          exact .inl (Option.some.inj same ▸ List.mem_cons_self)
        · exact .inr (isOld.symm.trans same)

/-- There is an oldest node, unless the cache is empty. -/
theorem Scans.oldestNode_spec :
    (db.oldestNode now = none → db.entries = []) ∧ ∀ x, db.oldestNode now = some x →
        x ∈ db.entries := by
  obtain ⟨isNone, isSome⟩ := @Scans.foldl_older now db.inOrder none
  refine ⟨fun none => ?_, fun x some => ?_⟩
  · refine List.eq_nil_iff_forall_not_mem.mpr fun x member => ?_
    have listed := Scans.mem_inOrder.mpr member
    rw [(isNone none).1] at listed
    exact List.not_mem_nil listed
  · exact Scans.mem_inOrder.mp ((isSome x some).resolve_right fun wrong => (nomatch wrong))

/-- The entries that an eviction leaves. -/
def Scans.spared (db : Scans) (now : BitVec 64) : List (Nat × ScanEntry) :=
  db.entries.filter fun x => decide (some x.1 ≠ db.evicted now)

/-- The eviction, with the duplicate held. -/
theorem Scans.evict_spec (exact : db.Exact refs) :
    ∃ db', (if db.numEntries ≥ maxScanCacheSize then db.flushOldestEntry now else some db) =
    some db' ∧
      db'.Exact refs ∧ db'.entries = db.spared now ∧ db'.nextId = db.nextId := by
  unfold Scans.spared Scans.evicted
  split
  · unfold Scans.flushOldestEntry
    cases oldest : db.oldestNode now with
    | none => exact ⟨db, rfl, exact, (List.filter_eq_self.mpr fun x _ => by simp).symm, rfl⟩
    | some x =>
      have linked := (exact.linked_of_entries (Scans.oldestNode_spec.2 x oldest)).1
      obtain ⟨db', deleted, exact', entries, nextId⟩ := Scans.delete_spec exact linked
      exact ⟨db', deleted, exact', entries.trans (List.filter_congr fun y _ => by simp), nextId⟩
  · exact ⟨db, rfl, exact, (List.filter_eq_self.mpr fun x _ => by simp).symm, rfl⟩

theorem Scans.spared_congr {other : Scans} (entries : other.entries = db.entries)
    (numEntries : other.numEntries = db.numEntries) : other.spared now = db.spared now := by
  have oldest : other.oldestNode now = db.oldestNode now := by
    unfold Scans.oldestNode Scans.inOrder
    rw [entries]
  unfold Scans.spared Scans.evicted
  rw [entries, numEntries, oldest]

/-- The entry that is replaced. -/
def Scans.dup (db : Scans) (frame : ScanEntry) : Option Nat := (db.findDuplicate frame).map Prod.fst

theorem Scans.dup_linked (exact : db.Exact refs) :
    ∀ id, db.dup frame = some id → id ∈ db.nodes.map (·.id) ∧ id < db.nextId := by
  intro id isDup
  obtain ⟨x, found, rfl⟩ := Option.map_eq_some_iff.mp isDup
  exact exact.linked_of_entries (List.mem_of_find?_eq_some found)

/-- **An add that succeeds** puts in its entry, in place of the duplicate. -/
theorem Scans.add_spec (exact : db.Exact []) :
    ∃ db', db.addUpdateEntry now true frame = some (db', true) ∧ db'.Exact [] ∧
      db'.entries.Perm ((db.nextId, db.entryFor now frame) ::
        (db.spared now).filter fun x => decide (some x.1 ≠ db.dup frame)) := by
  have dupLinked := @Scans.dup_linked _ _ frame exact
  obtain ⟨held, got, exactHeld, heldEntries, heldId, heldCount⟩ :=
    Scans.holdDuplicate_spec exact fun id isDup => (dupLinked id isDup).1
  obtain ⟨rest, evicted, exactRest, restEntries, restId⟩ := @Scans.evict_spec _ _ now exactHeld
  have restLinked : ∀ id, db.dup frame = some id → id ∈ rest.nodes.map (·.id) := fun id isDup =>
    exactRest.held id (by rw [isDup]; exact List.mem_cons_self)
  obtain ⟨more, added, exactMore⟩ := exactRest.addScanNode (db.entryFor now frame) restLinked
  have moreEntries := exactRest.addScanNode_entries (db.entryFor now frame) restLinked added
  obtain ⟨db', deleted, exact', entries⟩ := Scans.delDuplicate_spec exactMore
  refine ⟨db', ?_, exact', ?_⟩
  · unfold Scans.addUpdateEntry
    show ((db.holdDuplicate (db.dup frame)).bind _) = _
    rw [got, Option.bind_some, evicted, Option.bind_some, if_pos rfl]
    show ((rest.addScanNode _ (db.dup frame)).bind _).map _ = _
    rw [added, Option.bind_some]
    show (Scans.delDuplicate more (db.dup frame)).map _ = _
    rw [deleted]
    rfl
  · rw [restEntries, restId, heldId, Scans.spared_congr heldEntries heldCount] at moreEntries
    rw [entries]
    refine (moreEntries.filter _).trans ?_
    rw [List.filter_cons_of_pos]
    refine decide_eq_true fun isDup => ?_
    exact Nat.lt_irrefl _ (dupLinked db.nextId isDup.symm).2

/-- **An add that fails** leaves the entries that are not evicted. -/
theorem Scans.add_fails_spec (exact : db.Exact []) :
    ∃ db', db.addUpdateEntry now false frame = some (db', false) ∧ db'.Exact [] ∧
        db'.entries = db.spared now := by
  obtain ⟨held, got, exactHeld, heldEntries, heldId, heldCount⟩ :=
    Scans.holdDuplicate_spec exact fun id isDup => (@Scans.dup_linked _ _ frame exact id isDup).1
  obtain ⟨rest, evicted, exactRest, restEntries, restId⟩ := @Scans.evict_spec _ _ now exactHeld
  obtain ⟨db', given, exact', _⟩ := exactRest.putRefIf
  refine ⟨db', ?_, exact', ?_⟩
  · unfold Scans.addUpdateEntry
    show ((db.holdDuplicate (db.dup frame)).bind _) = _
    rw [got, Option.bind_some, evicted, Option.bind_some, if_neg (by simp)]
    show (rest.putRefIf (db.dup frame)).map _ = _
    rw [given]
    rfl
  · rw [(exactRest.putRefIf_entries given).1, restEntries, Scans.spared_congr heldEntries heldCount]

/-- Nodes deleted one by one, each of them once. -/
theorem Scans.deleteAll_spec {xs : List (Nat × ScanEntry)} (exact : db.Exact [])
    (listed : ∀ x ∈ xs, x ∈ db.entries) (once : (xs.map Prod.fst).Nodup) :
    ∃ db', db.deleteAll xs = some db' ∧ db'.Exact [] ∧ db'.entries.Sublist db.entries := by
  induction xs generalizing db with
  | nil => exact ⟨db, rfl, exact, List.Sublist.refl _⟩
  | cons x xs ih =>
    have linked := (exact.linked_of_entries (listed x List.mem_cons_self)).1
    obtain ⟨between, deleted, exactBetween, entries, _⟩ := Scans.delete_spec exact linked
    rw [List.map_cons, List.nodup_cons] at once
    have stillListed : ∀ y ∈ xs, y ∈ between.entries := by
      intro y member
      rw [entries]
      refine List.mem_filter.mpr ⟨listed y (List.mem_cons_of_mem _ member),
        decide_eq_true fun same => ?_⟩
      exact once.1 (same ▸ List.mem_map_of_mem member)
    obtain ⟨db', rest, exact', fewer⟩ := ih exactBetween stillListed once.2
    refine ⟨db', ?_, exact', fewer.trans (entries ▸ List.filter_sublist)⟩
    unfold Scans.deleteAll
    rw [deleted]
    exact rest

/-- A loop over the buckets sees every node once. -/
theorem Scans.inOrder_nodup (exact : db.Exact refs) : (db.inOrder.map Prod.fst).Nodup := by
  have ids := exact.entries_nodup
  unfold Scans.inOrder
  rw [List.map_flatMap]
  refine List.nodup_flatMap.mpr ⟨fun bucket _ => ids.sublist (List.filter_sublist.map _), ?_⟩
  refine List.pairwise_lt_range.imp fun {first second} apart id inFirst inSecond => ?_
  obtain ⟨x, isX, rfl⟩ := List.mem_map.mp inFirst
  obtain ⟨y, isY, same⟩ := List.mem_map.mp inSecond
  obtain ⟨listedX, hashX⟩ := List.mem_filter.mp isX
  obtain ⟨listedY, hashY⟩ := List.mem_filter.mp isY
  have equal : y = x := List.inj_on_of_nodup_map ids listedY listedX same
  rw [equal, of_decide_eq_true hashX] at hashY
  have := of_decide_eq_true hashY
  omega

theorem Scans.deleteSome_spec (exact : db.Exact []) (pick : Nat × ScanEntry → Bool) :
    ∃ db', db.deleteAll (db.inOrder.filter pick) = some db' ∧ db'.Exact [] ∧
        db'.entries.Sublist db.entries :=
  Scans.deleteAll_spec exact (fun _ member => Scans.mem_inOrder.mp (List.mem_of_mem_filter member))
    ((Scans.inOrder_nodup exact).sublist (List.filter_sublist.map _))

end Effects

/-! ### Calls and runs -/

variable {db : Scans} {call : Call} {calls : List Call} {now : BitVec 64} {frame : ScanEntry}

/-- The invariant that every run keeps. -/
structure Scans.Kept (db : Scans) : Prop where
  exact : db.Exact []
  bounded : db.numEntries ≤ maxScanCacheSize

theorem Scans.OnePerNetwork.of_sublist {db' : Scans} (network : db.OnePerNetwork)
    (fewer : db'.entries.Sublist db.entries) :
    db'.OnePerNetwork :=
  fun a inA b inB => network a (fewer.subset inA) b (fewer.subset inB)

/-- The eviction makes room. -/
theorem Scans.Kept.length_spared (kept : db.Kept) : (db.spared now).length < maxScanCacheSize := by
  have count := kept.exact.length_entries
  have bounded := kept.bounded
  unfold Scans.spared Scans.evicted
  split
  · rename_i full
    cases oldest : db.oldestNode now with
    | none =>
      have empty := Scans.oldestNode_spec.1 oldest
      rw [empty] at count
      exact absurd (count ▸ full) (by decide)
    | some x =>
      have member := Scans.oldestNode_spec.2 x oldest
      have shorter : (db.entries.filter fun y => decide (some y.1 ≠ (some x).map Prod.fst)).length <
          db.entries.length :=
        List.length_filter_lt_length_iff_exists.mpr ⟨x, member, by simp⟩
      omega
  · rename_i room
    have shorter :=
      List.length_filter_le (fun x : Nat × ScanEntry => decide (some x.1 ≠ none)) db.entries
    omega

/-- The entries after a call. -/
def Call.Leads (db db' : Scans) (done : Bool) : Call → Prop
  | .add now true frame => done = true ∧ db'.entries.Perm ((db.nextId, db.entryFor now frame) ::
      (db.spared now).filter fun x => decide (some x.1 ≠ db.dup frame))
  | .add now false _ => done = false ∧ db'.entries = db.spared now
  | _ => db'.entries.Sublist db.entries

/-- **A call keeps the accounting**, and an add succeeds as its memory allows. -/
theorem Call.run_spec (kept : db.Kept) (call : Call) :
    ∃ db' done, call.run db = some (db', done) ∧ db'.Kept ∧ call.Leads db db' done := by
  have fewer : ∀ db' : Scans, db'.Exact [] → db'.entries.Sublist db.entries → db'.Kept := by
    intro db' exact sublist
    refine ⟨exact, ?_⟩
    have bounded := kept.bounded
    rw [kept.exact.length_entries] at bounded
    rw [exact.length_entries]
    exact Nat.le_trans sublist.length_le bounded
  cases call with
  | add now memory frame =>
    cases memory with
    | true =>
      obtain ⟨db', added, exact, entries⟩ := @Scans.add_spec _ now frame kept.exact
      refine ⟨db', true, added, ⟨exact, ?_⟩, rfl, entries⟩
      have room := @Scans.Kept.length_spared _ now kept
      have shorter :=
        List.length_filter_le (fun x : Nat × ScanEntry => decide (some x.1 ≠ db.dup frame))
        (db.spared now)
      rw [exact.length_entries, entries.length_eq, List.length_cons]
      omega
    | false =>
      obtain ⟨db', failed, exact, entries⟩ := @Scans.add_fails_spec _ now frame kept.exact
      exact ⟨db', false, failed, fewer db' exact (entries ▸ List.filter_sublist), rfl, entries⟩
  | ageOut now agingTime =>
    obtain ⟨db', deleted, exact, sublist⟩ := Scans.deleteSome_spec kept.exact fun x =>
      (match db.inOrder.find? fun x => x.2.assocState with
        | none => true
        | some conn => decide (conn.2.transBssid ≠ x.2.transBssid)) &&
          decide (agingTime ≤ x.2.age now)
    refine ⟨db', true, ?_, fewer db' exact sublist, sublist⟩
    show (db.deleteAll _).map _ = _
    rw [deleted]
    rfl
  | flush filter =>
    obtain ⟨db', deleted, exact, sublist⟩ := Scans.deleteSome_spec kept.exact fun x => filter x.2
    refine ⟨db', true, ?_, fewer db' exact sublist, sublist⟩
    show (db.deleteAll _).map _ = _
    rw [deleted]
    rfl

/-- The new entry matches none of the others exactly when the call is tidy. -/
theorem Scans.OnePerNetwork.add_iff {db' : Scans} (network : db.OnePerNetwork) (kept : db.Kept)
    (entries : db'.entries.Perm ((db.nextId, db.entryFor now frame) ::
      (db.spared now).filter fun x => decide (some x.1 ≠ db.dup frame))) :
    db'.OnePerNetwork ↔ Tidy db (.add now true frame) := by
  have stays : ∀ x, x ∈ (db.spared now).filter (fun x => decide (some x.1 ≠ db.dup frame)) ↔
      x ∈ db.entries ∧ some x.1 ≠ db.evicted now ∧ some x.1 ≠ db.dup frame := by
    intro x
    unfold Scans.spared
    rw [List.mem_filter, List.mem_filter, decide_eq_true_eq, decide_eq_true_eq, and_assoc]
  constructor
  · rintro network' _ _ same x member notDup notEvicted
    obtain ⟨rfl, _, rfl⟩ := Call.add.inj same
    have isOld : x ∈ db'.entries :=
      entries.mem_iff.mpr (List.mem_cons_of_mem _ ((stays x).mpr ⟨member, notEvicted, notDup⟩))
    have isNew := entries.mem_iff.mpr List.mem_cons_self
    have apart := Nat.ne_of_lt (kept.exact.linked_of_entries member).2
    exact ⟨network' _ isNew x isOld (Ne.symm apart), network' x isOld _ isNew apart⟩
  · intro tidy a inA b inB apart
    rcases List.mem_cons.mp (entries.mem_iff.mp inA) with rfl | oldA
    · rcases List.mem_cons.mp (entries.mem_iff.mp inB) with rfl | oldB
      · exact absurd rfl apart
      · obtain ⟨member, notEvicted, notDup⟩ := (stays b).mp oldB
        exact (tidy now frame rfl b member notDup notEvicted).1
    · obtain ⟨member, notEvicted, notDup⟩ := (stays a).mp oldA
      rcases List.mem_cons.mp (entries.mem_iff.mp inB) with rfl | oldB
      · exact (tidy now frame rfl a member notDup notEvicted).2
      · exact network a member b ((stays b).mp oldB).1 apart

/-- What the search finds is the first match of the bucket. -/
theorem Scans.findDuplicate_spec :
    (db.findDuplicate frame = none → ∀ x ∈ db.entries, x.2.hash = frame.hash →
      frame.matches' x.2 = false) ∧
      ∀ dup, db.findDuplicate frame = some dup → db.FirstMatch frame dup := by
  unfold Scans.findDuplicate
  refine ⟨fun none x member bucket => ?_, fun dup some => ?_⟩
  · have fails := List.find?_eq_none.mp none x member
    simpa [bucket] using fails
  · obtain ⟨passes, front, back, isEntries, before⟩ := List.find?_eq_some_iff_append.mp some
    rw [Bool.and_eq_true, decide_eq_true_eq] at passes
    refine ⟨front, back, isEntries, passes.1, passes.2, fun x member bucket => ?_⟩
    simpa [bucket] using before x member

/-- There is one first match at most. -/
theorem Scans.FirstMatch.findDuplicate {dup : Nat × ScanEntry} (first : db.FirstMatch frame dup) :
    db.findDuplicate frame = some dup := by
  obtain ⟨front, back, isEntries, bucket, isMatch, before⟩ := first
  unfold Scans.findDuplicate
  refine List.find?_eq_some_iff_append.mpr ⟨?_, front, back, isEntries, fun x member => ?_⟩
  · rw [Bool.and_eq_true, decide_eq_true_eq]
    exact ⟨bucket, isMatch⟩
  · by_cases same : x.2.hash = frame.hash
    · simp [same, before x member same]
    · simp [same]

/-- **The added entry matches no other one exactly when the frame is clear.** -/
theorem tidy_iff (network : db.OnePerNetwork) (call : Call) : Tidy db call ↔ call.Clear db := by
  have ofAdd : ∀ now frame, Tidy db (.add now true frame) ↔ ∀ x ∈ db.entries,
      some x.1 ≠ (db.findDuplicate frame).map Prod.fst → some x.1 ≠ db.evicted now →
        (db.entryFor now frame).matches' x.2 = false ∧
            x.2.matches' (db.entryFor now frame) = false := by
    intro now frame
    refine ⟨fun tidy => tidy now frame rfl, ?_⟩
    rintro apart _ _ same
    obtain ⟨rfl, -, rfl⟩ := Call.add.inj same
    exact apart
  cases call with
  | ageOut | flush => exact iff_of_true (fun _ _ same => (nomatch same)) trivial
  | add now memory frame =>
    cases memory with
    | false => exact iff_of_true (fun _ _ same => (nomatch same)) trivial
    | true =>
      obtain ⟨ofNone, ofSome⟩ := @Scans.findDuplicate_spec db frame
      rw [ofAdd]
      show _ ↔ db.Clear now frame
      unfold Scans.entryFor
      cases found : db.findDuplicate frame with
      | none =>
        -- nothing is copied, and nothing replaced
        have noFirst : ∀ dup, ¬ db.FirstMatch frame dup := fun dup first => by
          rw [first.findDuplicate] at found
          cases found
        refine ⟨fun apart =>
          ⟨fun _ x member stays => apart x member (Option.some_ne_none _) stays, ?_⟩,
          fun clear => ?_⟩
        · exact fun dup first => absurd first (noFirst dup)
        · exact fun x member _ stays => clear.new (ofNone found) x member stays
      | some dup =>
        have first := ofSome dup found
        obtain ⟨front, back, isEntries, bucket, isMatch, -⟩ := first
        have inEntries : dup ∈ db.entries := isEntries ▸ List.mem_append_right _ List.mem_cons_self
        have apartIff : ∀ x ∈ db.entries, x.1 ≠ dup.1 →
            ((ScanEntry.copyInfoFromDupEntry now frame dup.2).matches' x.2 = false ∧
              x.2.matches' (ScanEntry.copyInfoFromDupEntry now frame dup.2) = false ↔
              (x.2.ess = frame.ess → ScanEntry.Apart now frame dup.2 x.2)) := fun x member other =>
          ScanEntry.apart_iff isMatch (network dup inEntries x member (Ne.symm other))
            (network x member dup inEntries other)
        constructor
        · intro apart
          refine ⟨fun none => ?_, fun other isFirst x member notDup stays => ?_⟩
          · rw [none dup inEntries bucket] at isMatch
            cases isMatch
          · obtain rfl := Option.some.inj (found.symm.trans isFirst.findDuplicate)
            exact (apartIff x member notDup).mp (apart x member (by simpa using notDup) stays)
        · intro clear x member notDup stays
          have other : x.1 ≠ dup.1 := by simpa using notDup
          exact (apartIff x member other).mpr
            (clear.known dup (ofSome dup found) x member other stays)

/-- **A call does what it is for exactly when it is tidy.** -/
theorem proper_iff (kept : db.Kept) (network : db.OnePerNetwork) (call : Call) : Proper db call ↔
    Tidy db call := by
  obtain ⟨db', done, ran, kept', leads⟩ := Call.run_spec kept call
  have only : ∀ {other done'}, call.run db = some (other, done') → other = db' ∧ done' = done := by
    intro other done' ran'
    have same := Option.some.inj (ran'.symm.trans ran)
    exact ⟨congrArg Prod.fst same, congrArg Prod.snd same⟩
  have networkIff : db'.OnePerNetwork ↔ Tidy db call := by
    cases call with
    | add now memory frame =>
      cases memory with
      | true => exact network.add_iff kept leads.2
      | false =>
        exact ⟨fun _ _ _ same => (nomatch same), fun _ =>
          network.of_sublist (leads.2 ▸ List.filter_sublist)⟩
    | ageOut | flush => exact ⟨fun _ _ _ same => (nomatch same), fun _ => network.of_sublist leads⟩
  constructor
  · exact fun proper => networkIff.mp (proper.network db' done ran)
  · intro tidy
    refine ⟨by rw [ran]; exact Option.some_ne_none _, fun other done' ran' => ?_,
      fun other done' ran' => ?_, ?_, ?_⟩
    · exact (only ran').1 ▸ networkIff.mpr tidy
    · exact (only ran').1 ▸ kept'.bounded
    · rintro now memory frame other rfl ran'
      obtain ⟨rfl, isDone⟩ := only ran'
      cases memory with
      | true => exact leads.2.mem_iff.mpr List.mem_cons_self
      | false => exact absurd (isDone.trans leads.1) (by decide)
    · rintro now memory frame other rfl ran'
      obtain ⟨rfl, isDone⟩ := only ran'
      cases memory with
      | true => exact absurd (isDone.trans leads.1) (by decide)
      | false => exact leads.2

theorem along_proper_iff (kept : db.Kept) (network : db.OnePerNetwork) :
    Call.Along Proper db calls ↔ Call.Along (fun db call => call.Clear db) db calls := by
  induction calls generalizing db with
  | nil => exact Iff.rfl
  | cons call calls ih =>
    have here : Proper db call ↔ call.Clear db :=
      (proper_iff kept network call).trans (tidy_iff network call)
    obtain ⟨next, done, ran, kept', _⟩ := Call.run_spec kept call
    have keeps : ∀ db' done', call.run db = some (db', done') → db'.Kept := by
      intro db' done' ran'
      obtain rfl := congrArg Prod.fst (Option.some.inj (ran.symm.trans ran'))
      exact kept'
    constructor
    · rintro ⟨proper, rest⟩
      exact ⟨here.mp proper, fun db' done' ran' =>
        (ih (keeps db' done' ran') (proper.network db' done' ran')).mp (rest db' done' ran')⟩
    · rintro ⟨clear, rest⟩
      exact ⟨here.mpr clear, fun db' done' ran' =>
        (ih (keeps db' done' ran') ((here.mpr clear).network db' done' ran')).mpr
          (rest db' done' ran')⟩

/-- A cache that is new. -/
def Scans.empty : Scans := ⟨[], 0, [], 0⟩

/-- **One entry per network.** Along a run of calls each of them does what it is for exactly when
every frame that is added is clear of the entries. -/
theorem one_per_network_iff (calls : List Call) :
    Call.Along Proper Scans.empty calls ↔
        Call.Along (fun db call => call.Clear db) Scans.empty calls := by
  refine along_proper_iff ⟨?_, Nat.zero_le _⟩ fun _ member => absurd member List.not_mem_nil
  exact ⟨rfl, fun _ member => absurd member List.not_mem_nil, fun _ member =>
    absurd member List.not_mem_nil,
    fun _ member => absurd member List.not_mem_nil, List.Perm.refl _⟩

/-- Two stations of an IBSS with this BSSID send beacons. -/
def ibssBeacon (bssid : BitVec 48) : ScanEntry where
  bssid := bssid
  ssid := [0x41]
  ess := false
  ibss := true
  chanFreq := 2412
  frmSubtype := .beacon
  isHiddenSsid := false
  hiddenSsidTimestamp := 0
  scanEntryTime := 0
  rssiRaw := -50
  htinfo := false
  dsParam := false
  channelMismatch := false
  assocState := false
  transBssid := bssid

/-- The same IBSS in two buckets. -/
theorem two_of_one_ibss :
    ¬ Call.Along Proper Scans.empty [.add 0 true (ibssBeacon 1), .add 0 true (ibssBeacon 2)] := by
  rintro ⟨_, along⟩
  obtain ⟨proper, _⟩ := along _ _ rfl
  have network := proper.network _ _ rfl
  exact absurd (network (0, ibssBeacon 1) (by decide) (1, ibssBeacon 2) (by decide) (by decide))
    (by decide)

end Qsdk.ScanCache
