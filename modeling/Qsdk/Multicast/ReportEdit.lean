/-
**Reports that are edited in place.**

`mc_ipv4_igmp3_report` and `mc_ipv6_mld2_report` take whole records, or some of their sources, out
of the report that they go over, and `mc_ipv4_skb_rebuild` and `mc_ipv6_skb_rebuild` put the lengths
and checksums right. What is to be taken out is given here: it is any outcome of the leave filter
for each record.
-/

import Qsdk.Lib.Words

namespace Qsdk.ReportEdit

open Words

/-! ### Model -/

/-- The sizes of a record without its sources and of a source, and what is pulled before a record is
looked at. -/
structure Format where
  grec : Nat
  src : Nat
  pulled : Nat

inductive Version
  | igmp3
  | mld2
deriving DecidableEq

def Version.format : Version → Format
  | .igmp3 => ⟨8, 4, 8⟩
  | .mld2 => ⟨20, 16, 4⟩

/-- What the leave filter decides on a record: nothing, `~0`, or which sources are suppressed. -/
inductive Outcome
  | keep
  | whole
  | sources (suppressed : List Nat → Bool)

/-- `memcpy` to an earlier place. -/
def moveDown (data : List Nat) (dst src count : Nat) : List Nat :=
  data.take dst ++ (data.drop src).take count ++ data.drop (dst + count)

/-- The loop of `mc_ipv4_source_list_filter` and `mc_ipv6_source_list_filter` over the sources at a
place. -/
def sourceListFilter (src : Nat) (suppressed : List Nat → Bool) (srcs : Nat) :
    Nat → List Nat → Nat → Nat → List Nat × Nat
  | 0, data, _, nsrcs => (data, nsrcs)
  | rounds + 1, data, m, nsrcs =>
    if m < nsrcs then
      if suppressed ((data.drop (srcs + m * src)).take src) then
        sourceListFilter src suppressed srcs rounds
          (moveDown data (srcs + m * src) (srcs + m * src + src) ((nsrcs - 1 - m) * src)) m
          (nsrcs - 1)
      else sourceListFilter src suppressed srcs rounds data (m + 1) nsrcs
    else (data, nsrcs)

/-- The variables of the loop, and the records that have been processed. -/
structure Edit where
  data : List Nat
  len : Nat
  prevOffset : Nat
  tlen : Nat
  ngroup : Nat
  rebuild : Bool
  processed : List (List Nat)

/-- Nothing is taken out. -/
def Edit.pass (edit : Edit) (len : Nat) : Edit := { edit with len := len, prevOffset := len }

/-- The whole record is taken out. -/
def Edit.delGrec (edit : Edit) (len : Nat) : Option Edit :=
  if edit.tlen < len then none
  else
    some { edit with
      data := moveDown edit.data edit.prevOffset len (edit.tlen - len)
      tlen := edit.tlen - (len - edit.prevOffset)
      len := edit.prevOffset
      ngroup := edit.ngroup - 1
      rebuild := true }

/-- Sources are taken out at the end of the record, where the filter has left them. -/
def Edit.delSources (edit : Edit) (len bytes : Nat) : Option Edit :=
  if edit.tlen < len then none
  else
    some { edit with
      data := moveDown edit.data (len - bytes) len (edit.tlen - len)
      tlen := edit.tlen - bytes
      len := len - bytes
      prevOffset := len - bytes
      rebuild := true }

/-- One round of the loop. `none` stands for `-EINVAL`. -/
def Edit.round (format : Format) (skbLen : Nat) (outcome : Outcome) (edit : Edit) : Option Edit :=
  if skbLen < edit.len + format.pulled then none
  else
    let nsrcs := be16At edit.data (edit.len + 2)
    let len := edit.len + format.grec + nsrcs * format.src
    if skbLen < len then none
    else
      let grec := edit.len
      let edit :=
        { edit with processed := edit.processed ++ [(edit.data.drop grec).take (len - grec)] }
      match outcome with
      | .keep => some (edit.pass len)
      | .whole => edit.delGrec len
      | .sources suppressed =>
        let filtered := sourceListFilter format.src suppressed
          (grec + format.grec) nsrcs edit.data 0 nsrcs
        let edit := { edit with data := putBe16 filtered.1 (grec + 2) filtered.2 }
        if nsrcs - filtered.2 = 0 then some (edit.pass len)
        else if filtered.2 = 0 then edit.delGrec len
        else edit.delSources len ((nsrcs - filtered.2) * format.src)

/-- The loop over the records, with the outcome for each. -/
def editLoop (format : Format) (skbLen : Nat) (outcome : Nat → Outcome) : Nat → Nat →
    Edit → Option Edit
  | 0, _, edit => some edit
  | rounds + 1, i, edit =>
    match edit.round format skbLen (outcome i) with
    | none => none
    | some edit => editLoop format skbLen outcome rounds (i + 1) edit

/-- A packet: the IP header with what belongs to it, and the bytes behind it. -/
structure Packet where
  ip : List Nat
  data : List Nat

/-- `mc_ipv4_skb_rebuild`. Whether `pskb_trim_rcsum` trims the packet is given. -/
def ipv4SkbRebuild (trims : Bool) (packet : Packet) (transportLen ngroup : Nat) : Option Packet :=
  if transportLen = 0 ∨ ngroup = 0 then none
  else if !trims then none
  else
    let data := putBe16 ((putBe16 packet.data 6 ngroup).take transportLen) 2 0
    let data := putBe16 data 2 (complement (wordsSum data))
    let ihl := packet.ip.headD 0 % 16
    let ip := putBe16 packet.ip 2 ((transportLen + ihl * 4) % 2 ^ 16)
    let ip := putBe16 ip 10 0
    some ⟨putBe16 ip 10 (complement (wordsSum (ip.take (ihl * 4)))), data⟩

/-- The words of the pseudo header: both addresses, the length and the protocol. -/
def pseudoSum (ip : List Nat) (len : Nat) : Nat := wordsSum ((ip.drop 8).take 32) + len + 58

/-- `mc_ipv6_skb_rebuild`. -/
def ipv6SkbRebuild (trims : Bool) (packet : Packet) (transportLen ngroup : Nat) : Option Packet :=
  if transportLen = 0 ∨ ngroup = 0 then none
  else if !trims then none
  else
    let data := (putBe16 packet.data 6 ngroup).take transportLen
    let ip := putBe16 packet.ip 4 ((transportLen + 8) % 2 ^ 16)
    let data := putBe16 data 2 0
    some ⟨ip, putBe16 data 2 (complement (pseudoSum ip transportLen + wordsSum data))⟩

def Version.skbRebuild : Version → Bool → Packet → Nat → Nat → Option Packet
  | .igmp3 => ipv4SkbRebuild
  | .mld2 => ipv6SkbRebuild

/-- The loop of `mc_ipv4_igmp3_report` and `mc_ipv6_mld2_report`. -/
def edited (version : Version) (outcome : Nat → Outcome) (packet : Packet) : Option Edit :=
  if packet.data.length < 8 then none
  else
    editLoop version.format packet.data.length outcome (be16At packet.data 6) 0
      ⟨packet.data, 8, 8, packet.data.length, be16At packet.data 6, false, []⟩

/-- **`mc_ipv4_igmp3_report`** and **`mc_ipv6_mld2_report`**, as far as the packet is concerned: it
is given if 0 is returned. -/
def report (version : Version) (trims : Bool) (outcome : Nat → Outcome) (packet : Packet) :
    Option Packet :=
  match edited version outcome packet with
  | none => none
  | some edit =>
    if edit.rebuild then version.skbRebuild trims ⟨packet.ip, edit.data⟩ edit.tlen edit.ngroup
    else some ⟨packet.ip, edit.data⟩

/-! ### What is promised -/

/-- A group record. -/
structure Grec where
  kind : List Nat
  group : List Nat
  srcs : List (List Nat)

def Grec.bytes (grec : Grec) : List Nat :=
  grec.kind ++ [grec.srcs.length / 256 % 256, grec.srcs.length % 256] ++ grec.group ++
    grec.srcs.flatten

/-- The record has the sizes of its version. -/
structure Grec.Fits (format : Format) (grec : Grec) : Prop where
  kind : grec.kind.length = 2
  group : grec.group.length + 4 = format.grec
  srcs : ∀ src ∈ grec.srcs, src.length = format.src
  number : grec.srcs.length < 2 ^ 16

def encodeAll (grecs : List Grec) : List Nat := grecs.flatMap Grec.bytes

/-- What is left of a record. -/
def Outcome.left (outcome : Outcome) (grec : Grec) : Option Grec :=
  match outcome with
  | .keep => some grec
  | .whole => none
  | .sources suppressed =>
    let kept := grec.srcs.filter fun src => !suppressed src
    if kept.length = grec.srcs.length then some grec else if kept =
      [] then none else some { grec with srcs := kept }

/-- Something of a record is taken out. -/
def Outcome.edits (outcome : Outcome) (grec : Grec) : Bool :=
  match outcome with
  | .keep => false
  | .whole => true
  | .sources suppressed =>
    decide ((grec.srcs.filter fun src => !suppressed src).length ≠ grec.srcs.length)

/-- What is left of the records, the first of which has a number. -/
def leftOf (outcome : Nat → Outcome) : Nat → List Grec → List Grec
  | _, [] => []
  | i, grec :: grecs => ((outcome i).left grec).toList ++ leftOf outcome (i + 1) grecs

/-- Something is taken out of the report. -/
def editsOf (outcome : Nat → Outcome) : Nat → List Grec → Bool
  | _, [] => false
  | i, grec :: grecs => (outcome i).edits grec || editsOf outcome (i + 1) grecs

/-- An IPv4 header with or without options, or an IPv6 header and 8 bytes of extension headers at
least. -/
def Version.HasHeader (version : Version) (ip : List Nat) : Prop :=
  match version with
  | .igmp3 => 20 ≤ ip.length ∧ ip.length = ip.headD 0 % 16 * 4
  | .mld2 => 48 ≤ ip.length

/-- A report whose records exactly fill the payload. -/
structure Holds (version : Version) (packet : Packet) (grecs : List Grec) : Prop where
  fits : ∀ grec ∈ grecs, grec.Fits version.format
  data : ∃ header, header.length = 8 ∧ be16At header 6 = grecs.length ∧
    packet.data = header ++ encodeAll grecs
  number : grecs.length < 2 ^ 16
  bytes : ∀ byte ∈ packet.ip ++ packet.data, byte < 256
  total : packet.ip.length + packet.data.length < 2 ^ 16
  ip : version.HasHeader packet.ip

/-- The lengths and checksums of a packet are right. -/
def Packet.Right (version : Version) (packet : Packet) : Prop :=
  match version with
  | .igmp3 => be16At packet.ip 2 = packet.ip.length + packet.data.length ∧
    65535 ∣ wordsSum packet.ip ∧
      65535 ∣ wordsSum packet.data
  | .mld2 => be16At packet.ip 4 + 40 = packet.ip.length + packet.data.length ∧
      65535 ∣ pseudoSum packet.ip packet.data.length + wordsSum packet.data

/-- **A well-formed report**: each record is processed once, and if something was taken out and 0 is
returned, there is just what is left of the records, in their order, with the number, the lengths
and the checksums. -/
def WellFormed (version : Version) (trims : Bool) (outcome : Nat → Outcome) (packet : Packet)
    (grecs : List Grec) :
    Prop :=
  (∃ edit, edited version outcome packet = some edit ∧ edit.processed = grecs.map Grec.bytes) ∧
    (editsOf outcome 0 grecs = true → ∀ new, report version trims outcome packet = some new →
      new.data.drop 8 = encodeAll (leftOf outcome 0 grecs) ∧
        be16At new.data 6 = (leftOf outcome 0 grecs).length ∧ new.Right version)

end Qsdk.ReportEdit
