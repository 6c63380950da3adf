import AuroraOS.Block.Device

/-!
# FAT32 directories and files

Model of the cluster, directory and file functions of `kernel/fat32.c`, over a block device that
keeps what is written to it.  Every `kmalloc` is taken to succeed: the paths after a failed one are
left out.  The walks along a cluster chain take fuel and are `none` when it is spent.  A directory
entry is the 32 bytes the source casts to `struct fat32_dir_entry` or `struct fat32_lfn_entry`; a
name is a string without its final NUL.
-/

namespace AuroraOS.Fat32

open Lib Block List Function

abbrev Name := List UInt8

inductive Errno
  | einval
  | eio
  | enoent
  | eexist
  | enotdir
  | enospc
  | enametoolong
  | eisdir
  | enotempty
  deriving DecidableEq, Repr

structure SbInfo where
  bdev : BlockDevice
  bytesPerSector : Nat
  sectorsPerCluster : Nat
  numFats : Nat
  sectorsPerFat : Nat
  fatStart : Nat
  dataStart : Nat
  clusterSize : Nat
  totalClusters : Nat
  fatCache : Option (Nat → Nat)

def clusterFree : Nat := 0
def clusterEocMin : Nat := 0x0FFFFFF8
def clusterEocMax : Nat := 0x0FFFFFFF

def attrVolumeId : UInt8 := 0x08
def attrDirectory : UInt8 := 0x10
def attrArchive : UInt8 := 0x20
def attrLfn : UInt8 := 0x0F
def lfnLast : UInt8 := 0x40

namespace SbInfo

variable (s : SbInfo)

def clusterEnd : Nat := (s.totalClusters + 2) % 2 ^ 32

def entriesPerCluster : Nat := s.clusterSize / 32

/-! ## Clusters -/

/-- The first sector of a cluster; `cluster - 2` is computed in 32 bits. -/
@[irreducible] def clusterToSector (cluster : Nat) : Nat :=
  (cluster + 2 ^ 32 - 2) % 2 ^ 32 * s.sectorsPerCluster + s.dataStart

def readCluster (cluster : Nat) : Option Store :=
  blockDevRead s.bdev (s.clusterToSector cluster) s.sectorsPerCluster

def writeCluster (cluster : Nat) (buf : Store) : Option SbInfo :=
  (blockDevWrite s.bdev buf (s.clusterToSector cluster) s.sectorsPerCluster).map
    fun d => { s with bdev := d }

/-- The sector of the first FAT that holds the entry of a cluster. -/
@[irreducible] def fatSector (cluster : Nat) : Nat :=
  (s.fatStart + cluster * 4 / s.bytesPerSector) % 2 ^ 32

/-- `fat32_get_cluster`; `& FAT32_CLUSTER_MASK` keeps the low 28 bits. -/
def getCluster (cluster : Nat) : Nat :=
  if cluster < 2 ∨ clusterEocMax ≤ cluster then clusterEocMax
  else
    match s.fatCache, decide (cluster < s.clusterEnd) with
    | some cache, true => cache cluster % 2 ^ 28
    | _, _ =>
      match blockDevRead s.bdev (s.fatSector cluster) 1 with
      | none => clusterEocMax
      | some buf => leRead buf (cluster * 4 % s.bytesPerSector) 4 % 2 ^ 28

end SbInfo

def setCopies (sector sectorsPerFat offset value : Nat) :
    BlockDevice → List Nat → BlockDevice × Except Errno Unit
  | d, [] => (d, .ok ())
  | d, fat :: rest =>
    match blockDevRead d (sector + fat * sectorsPerFat) 1 with
    | none => (d, .error .eio)
    | some buf =>
      match blockDevWrite d (leWrite buf offset 4 value) (sector + fat * sectorsPerFat) 1 with
      | none => (d, .error .eio)
      | some d => setCopies sector sectorsPerFat offset value d rest

namespace SbInfo

variable (s : SbInfo)

def setCache (cluster value : Nat) : Option (Nat → Nat) :=
  s.fatCache.map fun cache =>
    if cluster < s.clusterEnd then update cache cluster value else cache

def setCluster (cluster value : Nat) : SbInfo × Except Errno Unit :=
  if cluster < 2 ∨ clusterEocMax ≤ cluster then (s, .error .einval)
  else
    let r := setCopies (s.fatSector cluster) s.sectorsPerFat (cluster * 4 % s.bytesPerSector)
      (value % 2 ^ 28) s.bdev (range s.numFats)
    ({ s with bdev := r.1, fatCache := s.setCache cluster (value % 2 ^ 28) }, r.2)

def findFreeCluster : SbInfo × Nat :=
  match (range' 2 (s.clusterEnd - 2)).find? fun c => s.getCluster c == clusterFree with
  | some c => ((s.setCluster c clusterEocMax).1, c)
  | none => (s, 0)

def appendCluster (last : Nat) : SbInfo × Nat :=
  let r := s.findFreeCluster
  if r.2 = 0 then (r.1, 0)
  else if 2 ≤ last ∧ last < clusterEocMin then ((r.1.setCluster last r.2).1, r.2)
  else r

def freeClusterChain : Nat → SbInfo → Nat → Option SbInfo
  | 0, _, _ => none
  | fuel + 1, s, cluster =>
    if 2 ≤ cluster ∧ cluster < clusterEocMin then
      let next := s.getCluster cluster
      let s := (s.setCluster cluster clusterFree).1
      if clusterEocMin ≤ next then some s else freeClusterChain fuel s next
    else some s

end SbInfo

/-! ## Names -/

def checksum (shortName : List UInt8) : UInt8 :=
  shortName.foldl (fun sum b => (if sum &&& 1 = 1 then (0x80 : UInt8) else 0) + (sum >>> 1) + b) 0

def utf16ToAscii (ch : Nat) : UInt8 := if ch < 0x80 then UInt8.ofNat ch else '_'.toUInt8

/-- One of the copy loops of `fat32_parse_lfn`: `n` characters from `a` on, up to a zero one
or to the end of the output. -/
def copyChars (outMax : Nat) (lfn : Store) : Nat → Nat → Name → Name
  | _, 0, out => out
  | a, n + 1, out =>
    if out.length < outMax - 1 then
      if leRead lfn a 2 = 0 then out
      else copyChars outMax lfn (a + 2) n (out ++ [utf16ToAscii (leRead lfn a 2)])
    else out

def parseEntries (outMax : Nat) (entries : List Store) : Nat → Name → Option Name
  | 0, out => some out
  | i + 1, out =>
    let lfn := entries.getD i fun _ => 0
    if lfn 0 &&& 0x3F = UInt8.ofNat (i + 1) then
      parseEntries outMax entries i
        (copyChars outMax lfn 28 2 (copyChars outMax lfn 14 6 (copyChars outMax lfn 1 5 out)))
    else none

/-- `fat32_parse_lfn`; the empty name stands for the result 0. -/
def parseLfn (entries : List Store) (outMax : Nat) : Name :=
  (parseEntries outMax entries entries.length []).getD []

def space : UInt8 := 0x20
def dot : UInt8 := 0x2E

def shortNameToStr (raw : Store) : Name :=
  let base := ((range 8).map raw).takeWhile (· != space)
  if raw 8 = space then base
  else base ++ dot :: ([raw 8, raw 9, raw 10].takeWhile (· != space))

def toUpper (c : UInt8) : UInt8 := if 0x61 ≤ c ∧ c ≤ 0x7A then c - 0x20 else c

def padded (n : Nat) (cs : List UInt8) : List UInt8 :=
  cs.map toUpper ++ replicate (n - cs.length) space

variable (name : Name)

/-- `fat32_str_to_short_name`: the eleven bytes, `none` for -1. -/
def strToShortName : Option (List UInt8) :=
  if 1 < name.count dot then none
  else if dot ∈ name then
    if 8 < name.idxOf dot ∨ 3 < name.length - name.idxOf dot - 1 then none
    else some (padded 8 (name.take (name.idxOf dot)) ++ padded 3 (name.drop (name.idxOf dot + 1)))
  else if 8 < name.length then none
  else some (padded 8 name ++ padded 3 [])

def fallbackName : List UInt8 :=
  let base := ((name.takeWhile (· != dot)).take 6).map toUpper ++ [0x7E, 0x31]
  base ++ replicate (8 - base.length) space ++ [0x54, 0x58, 0x54]

def shortName : List UInt8 := (strToShortName name).getD (fallbackName name)

/-! ## Directory entries -/

def lfnEntries : Nat := (name.length + 12) / 13

/-- The `k`-th character of long-name entry `e`; the places behind the name are 0. -/
def lfnChar (e k : Nat) : UInt8 := name.getD (13 * e + k) 0

/-- Two bytes for each character, the high one 0. -/
def utf16Byte (char : Nat → UInt8) (i : Nat) : UInt8 := if i % 2 = 0 then char (i / 2) else 0

def lfnEntry (e : Nat) : Store := fun i =>
  if i = 0 then
    if e + 1 = lfnEntries name then UInt8.ofNat (e + 1) ||| lfnLast else UInt8.ofNat (e + 1)
  else if i < 11 then utf16Byte (lfnChar name e) (i - 1)
  else if i = 11 then attrLfn
  else if i = 12 then 0
  else if i = 13 then checksum (shortName name)
  else if i < 26 then utf16Byte (fun k => lfnChar name e (5 + k)) (i - 14)
  else if i < 28 then 0
  else if i < 32 then utf16Byte (fun k => lfnChar name e (11 + k)) (i - 28)
  else 0

/-- `struct fat32_dir_entry` with all times and dates 0. -/
def dirEntry (name : List UInt8) (attr : UInt8) (firstCluster fileSize : Nat) : Store := fun i =>
  if i < 11 then name.getD i 0
  else if i = 11 then attr
  else if i < 20 then 0
  else if i < 22 then UInt8.ofNat (firstCluster / 2 ^ 16 / 256 ^ (i - 20))
  else if i < 26 then 0
  else if i < 28 then UInt8.ofNat (firstCluster % 2 ^ 16 / 256 ^ (i - 26))
  else if i < 32 then UInt8.ofNat (fileSize / 256 ^ (i - 28))
  else 0

/-- The `k`-th entry `fat32_write_lfn` builds: the long-name entries with the last characters
first, then the 8.3 entry. -/
def builtEntry (attr : UInt8) (firstCluster fileSize k : Nat) : Store :=
  if k < lfnEntries name then lfnEntry name (lfnEntries name - 1 - k)
  else dirEntry (shortName name) attr firstCluster fileSize

def entryBuf (attr : UInt8) (firstCluster fileSize : Nat) : Store := fun b =>
  builtEntry name attr firstCluster fileSize (b / 32) (b % 32)

/-! ## Searching a directory -/

structure Slot where
  cluster : Nat
  index : Nat
  raw : Store

structure Found where
  entry : Store
  name : Name
  dirCluster : Nat
  dirOffset : Nat

def rawEntry (buf : Store) (i : Nat) : Store := fun b => if b < 32 then buf (i * 32 + b) else 0

variable (s : SbInfo)

def SbInfo.bufSlots (cluster : Nat) (buf : Store) : List Slot :=
  (range s.entriesPerCluster).map fun i => ⟨cluster, i, rawEntry buf i⟩

def longName (lfn : List Store) : Name := if 0 < lfn.length then parseLfn lfn 256 else []

/-- The two comparisons of `fat32_find_entry` at an 8.3 entry. -/
def Slot.resolve (slot : Slot) (name : Name) (lfn : List Store) : Option Found :=
  if 0 < (longName lfn).length ∧ longName lfn = name then
    some ⟨slot.raw, longName lfn, slot.cluster, slot.index * 32⟩
  else if shortNameToStr slot.raw = name then
    some ⟨slot.raw, shortNameToStr slot.raw, slot.cluster, slot.index * 32⟩
  else none

/-- How the scan of some entries ends: at the end of the directory, at the entry looked for, or
behind the last of them with the long-name entries collected so far. -/
inductive Scan
  | ended
  | found (f : Found)
  | more (lfn : List Store)

/-- The inner loop of `fat32_find_entry`. -/
def scanSlots (name : Name) : List Slot → List Store → Scan
  | [], lfn => .more lfn
  | slot :: rest, lfn =>
    if slot.raw 0 = 0 then .ended
    else if slot.raw 0 = 0xE5 then scanSlots name rest []
    else if slot.raw 11 = attrLfn then
      scanSlots name rest (if lfn.length < 20 then lfn ++ [slot.raw] else lfn)
    else if slot.raw 11 &&& attrVolumeId ≠ 0 then scanSlots name rest []
    else
      match slot.resolve name lfn with
      | some f => .found f
      | none => scanSlots name rest []

def Slot.isFree (slot : Slot) : Bool := slot.raw 0 == 0 || slot.raw 0 == 0xE5

namespace SbInfo

def findEntryFrom (s : SbInfo) (name : Name) : Nat → Nat → List Store → Option (Except Errno Found)
  | 0, _, _ => none
  | fuel + 1, cluster, lfn =>
    if 2 ≤ cluster ∧ cluster < clusterEocMin then
      match s.readCluster cluster with
      | none => some (.error .eio)
      | some buf =>
        match scanSlots name (s.bufSlots cluster buf) lfn with
        | .ended => some (.error .enoent)
        | .found f => some (.ok f)
        | .more lfn =>
          if clusterEocMin ≤ s.getCluster cluster then some (.error .enoent)
          else findEntryFrom s name fuel (s.getCluster cluster) lfn
    else some (.error .enoent)

variable (s : SbInfo)

def findEntry (dirCluster : Nat) (name : Name) (fuel : Nat) : Option (Except Errno Found) :=
  s.findEntryFrom name fuel dirCluster []

/-- The end of `fat32_find_free_slot`: a new cluster behind `last`, zeroed. -/
def appendSlot (last : Nat) : SbInfo × Except Errno (Nat × Nat) :=
  let r := s.appendCluster last
  if r.2 = 0 then (r.1, .error .enospc)
  else
    match r.1.writeCluster r.2 fun _ => 0 with
    | none => (r.1, .error .eio)
    | some s => (s, .ok (r.2, 0))

def findFreeSlot (s : SbInfo) : Nat → Nat → Option (SbInfo × Except Errno (Nat × Nat))
  | 0, _ => none
  | fuel + 1, cluster =>
    if 2 ≤ cluster ∧ cluster < clusterEocMin then
      match s.readCluster cluster with
      | none => some (s, .error .eio)
      | some buf =>
        match (s.bufSlots cluster buf).find? Slot.isFree with
        | some slot => some (s, .ok (cluster, slot.index * 32))
        | none =>
          if clusterEocMin ≤ s.getCluster cluster then some (s.appendSlot cluster)
          else findFreeSlot s fuel (s.getCluster cluster)
    else some (s.appendSlot cluster)

/-! ## Writing entries -/

/-- The walk of `fat32_write_lfn` to the cluster of an offset, `none` at the end of the chain. -/
def walkClusters (s : SbInfo) : Nat → Nat → Option Nat
  | cluster, 0 => some cluster
  | cluster, steps + 1 =>
    if clusterEocMin ≤ s.getCluster cluster then none
    else s.walkClusters (s.getCluster cluster) steps

def writeEntries (buf : Store) (needed cluster : Nat) :
    Nat → SbInfo → Nat → Nat → Option (SbInfo × Except Errno Unit)
  | 0, _, _, _ => none
  | fuel + 1, s, offset, written =>
    if written < needed then
      match s.walkClusters cluster (offset / s.clusterSize) with
      | none => some (s, .error .eio)
      | some target =>
        let chunk := min (s.clusterSize - offset % s.clusterSize) (needed - written)
        match s.readCluster target with
        | none => some (s, .error .eio)
        | some old =>
          match s.writeCluster target
              (blit old (offset % s.clusterSize) chunk fun i => buf (written + i)) with
          | none => some (s, .error .eio)
          | some s =>
            writeEntries buf needed cluster fuel s (offset + chunk) (written + chunk)
    else some (s, .ok ())

def writeLfn (dirCluster dirOffset : Nat) (name : Name) (attr : UInt8)
    (firstCluster fileSize fuel : Nat) : Option (SbInfo × Except Errno Unit) :=
  if name.length = 0 then some (s, .error .einval)
  else if 20 < lfnEntries name then some (s, .error .enametoolong)
  else
    writeEntries (entryBuf name attr firstCluster fileSize) ((lfnEntries name + 1) * 32) dirCluster
      fuel s dirOffset 0

def giveBack (fuel newCluster : Nat) (e : Errno) : Option (SbInfo × Except Errno Unit) :=
  (freeClusterChain fuel s newCluster).map fun s => (s, .error e)

def dotEntries (newCluster parentCluster : Nat) : Store := fun b =>
  if b < 32 then dirEntry (dot :: replicate 10 space) attrDirectory newCluster 0 b
  else if b < 64 then
    dirEntry (dot :: dot :: replicate 9 space) attrDirectory parentCluster 0 (b - 32)
  else 0

def mkdir (parentCluster : Nat) (name : Name) (fuel : Nat) : Option (SbInfo × Except Errno Unit) :=
  let r := s.findFreeCluster
  if r.2 = 0 then some (r.1, .error .enospc)
  else
    match r.1.writeCluster r.2 (dotEntries r.2 parentCluster) with
    | none => r.1.giveBack fuel r.2 .eio
    | some s => (s.findFreeSlot fuel parentCluster).bind fun (s, slot) =>
      match slot with
      | .error e => s.giveBack fuel r.2 e
      | .ok (_, targetOffset) =>
        (s.writeLfn parentCluster targetOffset name attrDirectory r.2 0 fuel).bind
          fun (s, done) =>
            match done with
            | .error e => s.giveBack fuel r.2 e
            | .ok () => some (s, .ok ())

end SbInfo

/-! ## File data -/

namespace SbInfo

def getNthCluster (s : SbInfo) : Nat → Nat → Nat
  | cluster, 0 => cluster
  | cluster, steps + 1 =>
    if clusterEocMin ≤ s.getCluster cluster then clusterEocMax
    else s.getNthCluster (s.getCluster cluster) steps

/-- The loop of `fat32_transfer_file` that counts the clusters of a chain. -/
def countClusters (s : SbInfo) : Nat → Nat → Option Nat
  | 0, _ => none
  | fuel + 1, cluster =>
    if 2 ≤ cluster ∧ cluster < clusterEocMin then
      if clusterEocMin ≤ s.getCluster cluster then some 1
      else (s.countClusters fuel (s.getCluster cluster)).map (· + 1)
    else some 0

def findLastCluster (s : SbInfo) : Nat → Nat → Nat → Option Nat
  | 0, _, _ => none
  | fuel + 1, lastCluster, cluster =>
    if 2 ≤ cluster ∧ cluster < clusterEocMin then
      if clusterEocMin ≤ s.getCluster cluster then some cluster
      else s.findLastCluster fuel cluster (s.getCluster cluster)
    else some lastCluster

/-- The loop of `fat32_transfer_file` that appends clusters; `false` when one is not found. -/
def extendChain : Nat → SbInfo → Nat → SbInfo × Bool
  | 0, s, _ => (s, true)
  | more + 1, s, lastCluster =>
    let r := s.appendCluster lastCluster
    if r.2 = 0 then (r.1, false) else extendChain more r.1 r.2

end SbInfo

/-- The variables of the copy loop of `fat32_transfer_file`: the volume, the caller's buffer,
`cluster_buf`, and the three counters. -/
structure Copy where
  s : SbInfo
  buf : Store
  clusterBuf : Store
  offset : Nat
  totalDone : Nat
  remaining : Nat

/-- What `fat32_transfer_file` leaves: the volume, the caller's buffer, the result, and the value
stored to `*new_size`. -/
structure Transfer where
  s : SbInfo
  buf : Store
  result : Except Errno Nat
  newSize : Option Nat

namespace Copy

variable (l : Copy)

def failed : Transfer :=
  ⟨l.s, l.buf, if 0 < l.totalDone then .ok l.totalDone else .error .eio, none⟩

def finished (isWrite : Bool) (fileSize : Nat) : Transfer where
  s := l.s
  buf := l.buf
  result := .ok l.totalDone
  newSize :=
    if isWrite then some (if fileSize < l.offset then l.offset % 2 ^ 32 else fileSize) else none

def chunk : Nat := min (l.s.clusterSize - l.offset % l.s.clusterSize) l.remaining

/-- The read-modify-write of a cluster: a cluster that is written whole is not read. -/
def writeChunk (target : Nat) : Option Copy :=
  let off := l.offset % l.s.clusterSize
  let old :=
    if off ≠ 0 ∨ l.chunk < l.s.clusterSize then l.s.readCluster target else some l.clusterBuf
  old.bind fun old =>
    let new := blit old off l.chunk fun i => l.buf (l.totalDone + i)
    (l.s.writeCluster target new).map fun s => { l with s := s, clusterBuf := new }

def readChunk (target : Nat) : Option Copy :=
  (l.s.readCluster target).map fun data =>
    { l with
      clusterBuf := data
      buf := blit l.buf l.totalDone l.chunk fun i => data (l.offset % l.s.clusterSize + i) }

def advance (chunk : Nat) : Copy :=
  { l with
    offset := l.offset + chunk
    totalDone := l.totalDone + chunk
    remaining := l.remaining - chunk }

def loop (isWrite : Bool) (startCluster fileSize : Nat) : Nat → Copy → Option Transfer
  | 0, _ => none
  | fuel + 1, l =>
    if 0 < l.remaining then
      let target := l.s.getNthCluster startCluster (l.offset / l.s.clusterSize % 2 ^ 32)
      if target = clusterEocMax then some l.failed
      else
        match if isWrite then l.writeChunk target else l.readChunk target with
        | none => some l.failed
        | some l' => loop isWrite startCluster fileSize fuel (l'.advance l.chunk)
    else some (l.finished isWrite fileSize)

end Copy

def SbInfo.readFile (startCluster fileSize : Nat) (buf : Store) (count offset : Nat)
    (clusterBuf : Store) (fuel : Nat) : Option Transfer :=
  if fileSize ≤ offset then some ⟨s, buf, .ok 0, none⟩
  else
    let count := if fileSize < (offset + count) % 2 ^ 64 then fileSize - offset else count
    Copy.loop false startCluster fileSize fuel ⟨s, buf, clusterBuf, offset, 0, count⟩

def SbInfo.writeFile (startCluster fileSize : Nat) (buf : Store) (count offset : Nat)
    (clusterBuf : Store) (clusters fuel : Nat) : Option Transfer :=
  if clusters * s.clusterSize < (offset + count) % 2 ^ 64 then
    (s.findLastCluster fuel startCluster startCluster).bind fun lastCluster =>
      let needed := (offset + count + s.clusterSize - 1) % 2 ^ 64 / s.clusterSize % 2 ^ 32
      let r := extendChain (needed - clusters) s lastCluster
      if r.2 then
        Copy.loop true startCluster fileSize fuel ⟨r.1, buf, clusterBuf, offset, 0, count⟩
      else some ⟨r.1, buf, .ok (if fileSize < offset then offset - fileSize else 0), some fileSize⟩
  else Copy.loop true startCluster fileSize fuel ⟨s, buf, clusterBuf, offset, 0, count⟩

def SbInfo.transferFile (startCluster fileSize : Nat) (buf : Store)
    (count offset : Nat) (isWrite : Bool) (clusterBuf : Store) (fuel : Nat) : Option Transfer :=
  (s.countClusters fuel startCluster).bind fun clusters =>
    if isWrite then s.writeFile startCluster fileSize buf count offset clusterBuf clusters fuel
    else s.readFile startCluster fileSize buf count offset clusterBuf fuel

structure InodeInfo where
  firstCluster : Nat
  isDir : Bool

def dirCreate (info : InodeInfo) (name : Name) (fuel : Nat) : Option (SbInfo × Except Errno Unit) :=
  if info.isDir = false then some (s, .error .enotdir)
  else (s.findEntry info.firstCluster name fuel).bind fun existing =>
    match existing with
    | .ok _ => some (s, .error .eexist)
    | .error _ =>
      let r := s.findFreeCluster
      if r.2 = 0 then some (r.1, .error .enospc)
      else (r.1.findFreeSlot fuel info.firstCluster).bind fun (s, slot) =>
        match slot with
        | .error e => s.giveBack fuel r.2 e
        | .ok (targetCluster, targetOffset) =>
          (s.writeLfn targetCluster targetOffset name attrArchive r.2 0 fuel).bind
            fun (s, done) =>
              match done with
              | .error e => s.giveBack fuel r.2 e
              | .ok () => some (s, .ok ())

def dirMkdir (info : InodeInfo) (name : Name) (fuel : Nat) : Option (SbInfo × Except Errno Unit) :=
  if info.isDir = false then some (s, .error .enotdir)
  else s.mkdir info.firstCluster name fuel

/-! ## Removing entries -/

def startCluster (raw : Store) : Nat := leRead raw 20 2 * 2 ^ 16 + leRead raw 26 2

def isDirectory (raw : Store) : Bool := raw 11 &&& attrDirectory != 0

inductive Search
  | ended
  | found (slot : Slot)
  | more

/-- The loop of `fat32_rmdir` and `fat32_dir_unlink` over the entries of a cluster. -/
def searchSlots (wanted : Store → Bool) : List Slot → Search
  | [] => .more
  | slot :: rest =>
    if slot.raw 0 = 0 then .ended
    else if slot.raw 0 = 0xE5 ∨ slot.raw 11 = attrLfn then searchSlots wanted rest
    else if wanted slot.raw then .found slot
    else searchSlots wanted rest

def markDeleted (buf : Store) (i : Nat) : Store := update buf (i * 32) 0xE5

/-- The loop that deletes the long-name entries before an entry, at most `left` of them, and the
number of those deleted. -/
def clearLfn : Nat → Nat → Store → Store × Nat
  | left + 1, j + 1, buf =>
    if buf (j * 32 + 11) = attrLfn then
      let r := clearLfn left j (markDeleted buf j)
      (r.1, r.2 + 1)
    else (buf, 0)
  | _, _, buf => (buf, 0)

namespace SbInfo

/-- The long-name entries before entry `i` are deleted in the cluster of the entry; a device
error is ignored. -/
def clearBefore (s : SbInfo) (cluster i : Nat) : SbInfo :=
  match s.readCluster cluster with
  | none => s
  | some buf =>
    let r := clearLfn 20 i buf
    if 0 < r.2 then (s.writeCluster cluster r.1).getD s else s

/-- The end of `fat32_rmdir` and `fat32_dir_unlink` from the cluster reached: the first entry that
is `wanted` is deleted, and the chain of `foundCluster` is freed. -/
def removeEntry (s : SbInfo) (wanted : Store → Bool) (foundCluster : Nat) :
    Nat → Nat → Option (SbInfo × Except Errno Unit)
  | 0, _ => none
  | fuel + 1, cluster =>
    if 2 ≤ cluster ∧ cluster < clusterEocMin then
      match s.readCluster cluster with
      | none => some (s, .error .eio)
      | some buf =>
        match searchSlots wanted (s.bufSlots cluster buf) with
        | .ended => some (s, .error .enoent)
        | .found slot =>
          match s.writeCluster cluster (markDeleted buf slot.index) with
          | none => some (s, .error .eio)
          | some s =>
            (freeClusterChain fuel (s.clearBefore cluster slot.index) foundCluster).map
              fun s => (s, .ok ())
        | .more =>
          if clusterEocMin ≤ s.getCluster cluster then some (s, .error .enoent)
          else removeEntry s wanted foundCluster fuel (s.getCluster cluster)
    else some (s, .error .enoent)

end SbInfo

def slotsEmpty : List Slot → Bool
  | [] => true
  | slot :: rest =>
    if slot.raw 0 = 0 then true
    else if slot.raw 0 = 0xE5 ∨ slot.raw 11 = attrLfn then slotsEmpty rest
    else false

namespace SbInfo

/-- The loop of `fat32_rmdir` that looks for entries in use; the first two entries of the first
cluster are not looked at. -/
def dirIsEmpty (s : SbInfo) (foundCluster : Nat) : Nat → Nat → Option (Except Errno Bool)
  | 0, _ => none
  | fuel + 1, cluster =>
    if 2 ≤ cluster ∧ cluster < clusterEocMin then
      match s.readCluster cluster with
      | none => some (.error .eio)
      | some buf =>
        let startEntry := if cluster = foundCluster then 2 else 0
        if slotsEmpty ((s.bufSlots cluster buf).drop startEntry) then
          if clusterEocMin ≤ s.getCluster cluster then some (.ok true)
          else s.dirIsEmpty foundCluster fuel (s.getCluster cluster)
        else some (.ok false)
    else some (.ok true)

def rmdir (s : SbInfo) (parentCluster : Nat) (name : Name) (fuel : Nat) :
    Option (SbInfo × Except Errno Unit) :=
  (s.findEntry parentCluster name fuel).bind fun existing =>
    match existing with
    | .error e => some (s, .error e)
    | .ok f =>
      if isDirectory f.entry = false then some (s, .error .enotdir)
      else
        let foundCluster := startCluster f.entry
        (s.dirIsEmpty foundCluster fuel foundCluster).bind fun empty =>
          match empty with
          | .error e => some (s, .error e)
          | .ok false => some (s, .error .enotempty)
          | .ok true =>
            s.removeEntry (fun raw => startCluster raw == foundCluster && isDirectory raw)
              foundCluster fuel parentCluster

end SbInfo

def dirRmdir (info : InodeInfo) (name : Name) (fuel : Nat) : Option (SbInfo × Except Errno Unit) :=
  if info.isDir = false then some (s, .error .enotdir)
  else s.rmdir info.firstCluster name fuel

def dirUnlink (info : InodeInfo) (name : Name) (fuel : Nat) : Option (SbInfo × Except Errno Unit) :=
  if info.isDir = false then some (s, .error .enotdir)
  else (s.findEntry info.firstCluster name fuel).bind fun existing =>
    match existing with
    | .error e => some (s, .error e)
    | .ok f =>
      if isDirectory f.entry then some (s, .error .eisdir)
      else
        s.removeEntry (fun raw => startCluster raw == startCluster f.entry)
          (startCluster f.entry) fuel info.firstCluster

/-! ## Inodes -/

/-- The fields of `struct fat32_inode_info`.  The size of a directory is left out: nothing here
reads it. -/
structure Inode extends InodeInfo where
  fileSize : Nat
  parentCluster : Nat
  dirEntryOffset : Nat

def dirLookup (info : InodeInfo) (name : Name) (fuel : Nat) : Option (Except Errno Inode) :=
  if info.isDir = false then some (.error .enotdir)
  else (s.findEntry info.firstCluster name fuel).map fun existing =>
    existing.map fun f =>
      { firstCluster := startCluster f.entry
        isDir := isDirectory f.entry
        fileSize := leRead f.entry 28 4
        parentCluster := f.dirCluster
        dirEntryOffset := f.dirOffset }

def SbInfo.updateSize (info : Inode) (newSize : Nat) : SbInfo :=
  if 2 ≤ info.parentCluster ∧ info.parentCluster < clusterEocMin then
    match s.readCluster info.parentCluster with
    | none => s
    | some buf =>
      (s.writeCluster info.parentCluster
        (leWrite buf (info.dirEntryOffset + 28) 4 newSize)).getD s
  else s

def fileWrite (info : Inode) (buf : Store) (count offset : Nat) (clusterBuf : Store)
    (fuel : Nat) : Option (SbInfo × Inode × Except Errno Nat) :=
  (s.transferFile info.firstCluster info.fileSize buf count offset true clusterBuf fuel).map
    fun t =>
      match t.result with
      | .error e => (t.s, info, .error e)
      | .ok ret =>
        if 0 < ret then
          let newSize := t.newSize.getD info.fileSize
          (t.s.updateSize info newSize, { info with fileSize := newSize }, .ok ret)
        else (t.s, info, .ok ret)

end AuroraOS.Fat32
