import DiskPartitions.PrintedMetadata
import DiskPartitions.WrittenLabels

/-!
# Volume groups printed

A volume group is written as the section that its metadata has for it: physical volumes by their
names, and logical volumes with their segments in order.  The groups that some text describes are
those whose numbers the metadata can hold and whose segments have what their kind has; each of them
is read back from its own text.
-/

namespace DiskPartitions

open Refusals Utf8

/-! ## Printing -/

/-- The entry for what may be missing. -/
def optionalEntry (key : String) : Option Value → Section
  | none => []
  | some found => [(key, found)]

def stripeEntries (seg : Segment) : Section :=
  if seg.kind = "striped" then
    [("stripe_count", .int seg.stripes.length),
      ("stripe_size", .int (seg.stripeSize / lvmSector : Nat)),
      ("stripes", .list (seg.stripes.flatMap fun stripe =>
        [.str stripe.pv, .int stripe.startExtent]))]
  else []

/-- The sub-volumes of a segment that has them. -/
def imageEntries (seg : Segment) : Section :=
  if seg.kind.startsWith "raid" then
    [("raids", .list ((seg.metadata.zip seg.images).flatMap fun pair =>
      [.str pair.1, .str pair.2]))]
  else if seg.kind = "thin-pool" then
    seg.metadata.map (fun tmeta => ("metadata", .str tmeta)) ++
      seg.images.map fun pool => ("pool", .str pool)
  else if seg.kind = "mirror" then
    [("mirrors", .list (seg.images.flatMap fun image => [.str image, .int 0]))]
  else []

def Segment.toMetadata (seg : Segment) : Section :=
  [("type", .str seg.kind), ("start_extent", .int seg.startExtent),
    ("extent_count", .int seg.extentCount)] ++
    optionalEntry "thin_pool" (seg.thinPool.map .str) ++
    optionalEntry "device_id" (seg.deviceId.map fun id : Nat => .int id) ++
    optionalEntry "external_origin" (seg.externalOrigin.map .str) ++
    stripeEntries seg ++ imageEntries seg

/-- A logical volume, its segments numbered from one. -/
def LogicalVolumeInfo.toMetadata (lv : LogicalVolumeInfo) : Section :=
  ("id", .str lv.id) :: (lv.segments.zipIdx 1).map fun entry =>
    ("segment" ++ toString entry.2, .nested entry.1.toMetadata)

def PhysicalVolume.toMetadata (pv : PhysicalVolume) : Section :=
  [("id", .str pv.uuid), ("pe_start", .int (pv.peStart / lvmSector : Nat)),
    ("pe_count", .int pv.peCount)]

/-- The section under the group's name. -/
def VolumeGroup.body (vg : VolumeGroup) : Section :=
  [("id", .str vg.id), ("seqno", .int vg.seqno),
    ("extent_size", .int (vg.extentSize / lvmSector : Nat)),
    ("physical_volumes", .nested (vg.physicalVolumes.map fun pv =>
      (pv.name, .nested pv.toMetadata))),
    ("logical_volumes", .nested (vg.logicalVolumes.map fun lv =>
      (lv.name, .nested lv.toMetadata)))]

def VolumeGroup.toMetadata (vg : VolumeGroup) : Section := [(vg.name, .nested vg.body)]

/-- The text of a volume group. -/
def VolumeGroup.toText (vg : VolumeGroup) : String := printedEntries vg.toMetadata

/-! ## What can be described -/

/-- A number of bytes that the metadata counts in sectors. -/
def Sectors (bytes : Nat) : Prop := lvmSector ∣ bytes ∧ bytes < 2 ^ 64

structure PhysicalVolume.Described (pv : PhysicalVolume) : Prop where
  name : Parser.Name pv.name
  uuid : '-' ∉ pv.uuid.toList
  start : Sectors pv.peStart
  count : pv.peCount < 2 ^ 63

/-- What a striped segment has, and no other. -/
def Segment.StripesDescribed (seg : Segment) : Prop :=
  if seg.kind = "striped" then
    seg.stripes ≠ [] ∧ seg.stripes.length < 2 ^ 63 ∧
      (∀ stripe ∈ seg.stripes, stripe.startExtent < 2 ^ 63) ∧
      if 1 < seg.stripes.length then Sectors seg.stripeSize else seg.stripeSize = 0
  else seg.stripes = [] ∧ seg.stripeSize = 0

/-- The sub-volumes a segment of its kind has. -/
def Segment.ImagesDescribed (seg : Segment) : Prop :=
  if seg.kind.startsWith "raid" then seg.metadata.length = seg.images.length
  else if seg.kind = "thin-pool" then seg.metadata.length = 1 ∧ seg.images.length = 1
  else if seg.kind = "mirror" then seg.metadata = []
  else seg.metadata = [] ∧ seg.images = []

structure Segment.Described (seg : Segment) : Prop where
  start : seg.startExtent < 2 ^ 63
  count : seg.extentCount < 2 ^ 63
  device : ∀ id ∈ seg.deviceId, id < 2 ^ 63
  stripes : seg.StripesDescribed
  images : seg.ImagesDescribed

structure LogicalVolumeInfo.Described (lv : LogicalVolumeInfo) : Prop where
  name : Parser.Name lv.name
  segments : ∀ seg ∈ lv.segments, seg.Described
  ordered : lv.segments.Pairwise fun first second => first.startExtent ≤ second.startExtent

/-- A volume group that some text describes. -/
structure VolumeGroup.Described (vg : VolumeGroup) : Prop where
  name : Parser.Name vg.name
  seqno : vg.seqno < 2 ^ 63
  extents : Sectors vg.extentSize
  physical : ∀ pv ∈ vg.physicalVolumes, pv.Described
  logical : ∀ lv ∈ vg.logicalVolumes, lv.Described

/-! ## Looking up entries -/

namespace Section

@[simp] theorem get_nil (key : String) : Section.get [] key = none := rfl

theorem get_cons (entry : String × Value) (rest : Section) (key : String) :
    Section.get (entry :: rest) key =
      if entry.1 = key then some entry.2 else Section.get rest key := by
  unfold Section.get
  rw [List.find?_cons]
  by_cases same : entry.1 = key
  · simp [same]
  · simp [same]

theorem get_append (first second : Section) (key : String) :
    Section.get (first ++ second) key = (Section.get first key).or (Section.get second key) := by
  induction first with
  | nil => rfl
  | cons entry rest ih =>
      rw [List.cons_append, get_cons, get_cons, ih]
      split
      next => rfl
      next => rfl

theorem get_optionalEntry (key other : String) (found : Option Value) :
    Section.get (optionalEntry key found) other = if key = other then found else none := by
  cases found with
  | none =>
      rw [optionalEntry, get_nil]
      split
      next => rfl
      next => rfl
  | some found =>
      rw [optionalEntry, get_cons, get_nil]

theorem mem_of_get {entries : Section} {key : String} {found : Value}
    (under : entries.get key = some found) : (key, found) ∈ entries := by
  induction entries with
  | nil => cases under
  | cons entry rest ih =>
      rw [get_cons] at under
      split at under
      next same =>
        cases under
        rw [← same]
        exact List.mem_cons_self
      next => exact List.mem_cons_of_mem entry (ih under)

theorem mem_sections {entries : Section} {key : String} {body : Section} :
    (key, body) ∈ entries.sections ↔ (key, .nested body) ∈ entries := by
  unfold sections
  rw [List.mem_filterMap]
  constructor
  · rintro ⟨⟨other, found⟩, member, same⟩
    cases found with
    | nested inner =>
        cases same
        exact member
    | int value => cases same
    | str text => cases same
    | list items => cases same
  · intro member
    exact ⟨_, member, rfl⟩

theorem sections_map {α : Type} (items : List α) (key : α → String) (body : α → Section) :
    sections (items.map fun item => (key item, .nested (body item))) =
      items.map fun item => (key item, body item) := by
  unfold sections
  rw [List.filterMap_map]
  induction items with
  | nil => rfl
  | cons item rest ih =>
      rw [List.filterMap_cons, ih]
      rfl

theorem uint_of_get {entries : Section} {key : String} {n : Nat}
    (under : entries.get key = some (.int n)) : entries.uint key = .ok n := by
  unfold uint int
  rw [under, ok_bind, refuseIf_of_not (by omega), ok_bind]
  rfl

theorem str_of_get {entries : Section} {key text : String}
    (under : entries.get key = some (.str text)) : entries.str key = .ok text := by
  unfold str
  rw [under]

theorem listOf_of_get {entries : Section} {key : String} {items : List Value}
    (under : entries.get key = some (.list items)) (error : LvmError) :
    entries.listOf key error = .ok items := by
  unfold listOf
  rw [under]

theorem int_eq_ok {entries : Section} {key : String} {value : Int}
    (read : entries.int key = .ok value) : entries.get key = some (.int value) := by
  unfold int at read
  split at read
  next under =>
    cases read
    exact under
  next => cases read

theorem listOf_eq_ok {entries : Section} {key : String} {error : LvmError} {items : List Value}
    (read : entries.listOf key error = .ok items) : entries.get key = some (.list items) := by
  unfold listOf at read
  split at read
  next under =>
    cases read
    exact under
  next => cases read

theorem inner_eq_ok {entries : Section} {key : String} {body : Section}
    (read : entries.inner key = .ok body) : entries.get key = some (.nested body) := by
  unfold inner at read
  split at read
  next under =>
    cases read
    exact under
  next => cases read

end Section

/-- A tree's entries are named, and their values are plain or trees. -/
theorem Tree.entry {left : Nat} {found : Section} (tree : Tree left found) {key : String}
    {value : Value} (member : (key, value) ∈ found) :
    Parser.Name key ∧ (Plain value ∨ ∃ inner body, value = .nested body ∧ Tree inner body) := by
  induction tree with
  | empty => cases member
  | value name own later ih =>
      rcases List.mem_cons.mp member with same | member
      · cases same
        exact ⟨name, .inl own⟩
      · exact ih member
  | nested name own later ihOwn ih =>
      rcases List.mem_cons.mp member with same | member
      · cases same
        exact ⟨name, .inr ⟨_, _, rfl, own⟩⟩
      · exact ih member

/-- The section under a key, or among the entries, is a tree. -/
theorem Tree.inside {left : Nat} {found : Section} (tree : Tree left found) {key : String}
    {body : Section} (member : (key, .nested body) ∈ found) :
    Parser.Name key ∧ ∃ inner, Tree inner body := by
  obtain ⟨name, plain | ⟨inner, other, same, own⟩⟩ := tree.entry member
  · cases plain
  · cases same
    exact ⟨name, inner, own⟩

/-- The value under a key of a tree is plain when it is no section. -/
theorem Tree.plain {left : Nat} {found : Section} (tree : Tree left found) {key : String}
    {value : Value} (under : found.get key = some value)
    (other : ∀ body, value ≠ .nested body) : Plain value := by
  obtain ⟨_, plain | ⟨_, body, same, _⟩⟩ := tree.entry (Section.mem_of_get under)
  · exact plain
  · exact absurd same (other body)

theorem Tree.uint {left : Nat} {found : Section} (tree : Tree left found) {key : String} {n : Nat}
    (read : found.uint key = .ok n) : n < 2 ^ 63 := by
  unfold Section.uint at read
  obtain ⟨value, under, read⟩ := bind_eq_ok.mp read
  obtain ⟨positive, read⟩ := refuseIf_bind_eq_ok.mp read
  cases read
  have plain := tree.plain (Section.int_eq_ok under) (fun body same => by cases same)
  cases plain with
  | int least most => omega

/-! ## Segments -/

/-- What is read two by two from values written two by two. -/
theorem pairsOf_flatMap {α : Type} {pick : Value → Value → Option α} (error : LvmError)
    {items : List α} {first second : α → Value}
    (picks : ∀ item ∈ items, pick (first item) (second item) = some item) :
    pairsOf pick error (items.flatMap fun item => [first item, second item]) = .ok items := by
  induction items with
  | nil => rfl
  | cons item rest ih =>
      have own := picks item List.mem_cons_self
      have later := ih fun other member => picks other (List.mem_cons_of_mem item member)
      rw [List.flatMap_cons, List.cons_append, List.cons_append, List.nil_append, pairsOf, own,
        later]
      rfl

/-- Each pair that is read was picked from two of the values. -/
theorem mem_pairsOf {α : Type} {pick : Value → Value → Option α} {error : LvmError}
    {values : List Value} {found : List α} (read : pairsOf pick error values = .ok found) :
    ∀ item ∈ found, ∃ first ∈ values, ∃ second ∈ values, pick first second = some item := by
  fun_induction pairsOf pick error values generalizing found with
  | case1 =>
      cases read
      simp
  | case2 => cases read
  | case3 first second rest ih =>
      obtain ⟨pair, own, read⟩ := bind_eq_ok.mp read
      obtain ⟨more, later, read⟩ := bind_eq_ok.mp read
      cases read
      rw [List.forall_mem_cons]
      constructor
      · exact ⟨first, by simp, second, by simp, orRefuse_eq_ok.mp own⟩
      · intro item member
        obtain ⟨one, oneIn, two, twoIn, picked⟩ := ih later item member
        exact ⟨one, by simp [oneIn], two, by simp [twoIn], picked⟩

theorem sectorBytes_eq_ok {entries : Section} {key : String} {bytes : Nat}
    (read : sectorBytes entries key = .ok bytes) : Sectors bytes := by
  unfold sectorBytes at read
  obtain ⟨sectors, under, read⟩ := bind_eq_ok.mp read
  obtain ⟨small, read⟩ := refuseIf_bind_eq_ok.mp read
  cases read
  exact ⟨Nat.dvd_mul_left lvmSector sectors, Nat.not_le.mp small⟩

theorem sectorBytes_of_get {entries : Section} {key : String} {bytes : Nat}
    (whole : Sectors bytes)
    (under : entries.get key = some (.int (bytes / lvmSector : Nat))) :
    sectorBytes entries key = .ok bytes := by
  unfold sectorBytes
  rw [Section.uint_of_get under, ok_bind, Nat.div_mul_cancel whole.1,
    refuseIf_of_not (Nat.not_le.mpr whole.2)]
  rfl

theorem Sectors.div_lt {bytes : Nat} (whole : Sectors bytes) : bytes / lvmSector < 2 ^ 63 := by
  have small := whole.2
  unfold lvmSector
  omega

/-- The keys of a segment that every kind has. -/
theorem get_toMetadata (seg : Segment) :
    seg.toMetadata.get "type" = some (.str seg.kind) ∧
      seg.toMetadata.get "start_extent" = some (.int seg.startExtent) ∧
      seg.toMetadata.get "extent_count" = some (.int seg.extentCount) := by
  unfold Segment.toMetadata
  simp only [List.append_assoc, List.cons_append, Section.get_cons]
  refine ⟨rfl, rfl, rfl⟩

theorem get_stripeEntries_of_ne {seg : Segment} {key : String}
    (other : key ≠ "stripe_count" ∧ key ≠ "stripe_size" ∧ key ≠ "stripes") :
    Section.get (stripeEntries seg) key = none := by
  unfold stripeEntries
  split
  next =>
    rw [Section.get_cons, if_neg other.1.symm, Section.get_cons, if_neg other.2.1.symm,
      Section.get_cons, if_neg other.2.2.symm, Section.get_nil]
  next => rfl

theorem get_map_of_ne {α : Type} {items : List α} {own key : String} {value : α → Value}
    (other : own ≠ key) : Section.get (items.map fun item => (own, value item)) key = none := by
  induction items with
  | nil => rfl
  | cons item rest ih => rw [List.map_cons, Section.get_cons, if_neg other, ih]

theorem get_imageEntries_of_ne {seg : Segment} {key : String}
    (other : key ≠ "raids" ∧ key ≠ "metadata" ∧ key ≠ "pool" ∧ key ≠ "mirrors") :
    Section.get (imageEntries seg) key = none := by
  unfold imageEntries
  split
  next => rw [Section.get_cons, if_neg other.1.symm, Section.get_nil]
  next =>
    split
    next =>
      rw [Section.get_append, get_map_of_ne other.2.1.symm, get_map_of_ne other.2.2.1.symm,
        Option.or_none]
    next =>
      split
      next => rw [Section.get_cons, if_neg other.2.2.2.symm, Section.get_nil]
      next => rfl

/-- The keys that may be missing. -/
theorem get_optional (seg : Segment) :
    seg.toMetadata.get "thin_pool" = seg.thinPool.map .str ∧
      seg.toMetadata.get "device_id" = (seg.deviceId.map fun id : Nat => .int id) ∧
      seg.toMetadata.get "external_origin" = seg.externalOrigin.map .str := by
  unfold Segment.toMetadata
  simp only [List.append_assoc, List.cons_append, List.nil_append, Section.get_cons,
    Section.get_append, Section.get_optionalEntry]
  rw [get_stripeEntries_of_ne (by decide), get_imageEntries_of_ne (by decide),
    get_stripeEntries_of_ne (by decide), get_imageEntries_of_ne (by decide),
    get_stripeEntries_of_ne (by decide), get_imageEntries_of_ne (by decide)]
  refine ⟨?_, ?_, ?_⟩
  all_goals simp

/-- The stripes of a segment are told from no other entry. -/
theorem get_stripes {seg : Segment} {key : String}
    (own : key = "stripe_count" ∨ key = "stripe_size" ∨ key = "stripes") :
    seg.toMetadata.get key = Section.get (stripeEntries seg) key := by
  have apart : Section.get (imageEntries seg) key = none := by
    apply get_imageEntries_of_ne
    rcases own with rfl | rfl | rfl
    all_goals decide
  unfold Segment.toMetadata
  rw [Section.get_append, apart, Option.or_none]
  simp only [List.append_assoc, List.cons_append, List.nil_append, Section.get_cons,
    Section.get_append, Section.get_optionalEntry]
  rcases own with rfl | rfl | rfl
  all_goals simp

theorem get_images {seg : Segment} {key : String}
    (own : key = "raids" ∨ key = "metadata" ∨ key = "pool" ∨ key = "mirrors") :
    seg.toMetadata.get key = Section.get (imageEntries seg) key := by
  have apart : Section.get (stripeEntries seg) key = none := by
    apply get_stripeEntries_of_ne
    rcases own with rfl | rfl | rfl | rfl
    all_goals decide
  unfold Segment.toMetadata
  simp only [List.append_assoc, List.cons_append, List.nil_append, Section.get_cons,
    Section.get_append, Section.get_optionalEntry, apart]
  rcases own with rfl | rfl | rfl | rfl
  all_goals simp

/-- A striped segment's stripes are read as they are written. -/
theorem segmentStripes_toMetadata {seg : Segment} (striped : seg.kind = "striped")
    (described : seg.StripesDescribed) (place : String) :
    segmentStripes seg.toMetadata place = .ok ⟨(seg.stripes, seg.stripeSize), seg.sized⟩ := by
  unfold Segment.StripesDescribed at described
  rw [if_pos striped] at described
  obtain ⟨some_stripes, short, small, size⟩ := described
  have entries : stripeEntries seg = [("stripe_count", .int seg.stripes.length),
      ("stripe_size", .int (seg.stripeSize / lvmSector : Nat)),
      ("stripes", .list (seg.stripes.flatMap fun stripe =>
        [.str stripe.pv, .int stripe.startExtent]))] := if_pos striped
  have count : seg.toMetadata.get "stripe_count" = some (.int seg.stripes.length) := by
    rw [get_stripes (by simp), entries]
    rfl
  have sized : seg.toMetadata.get "stripe_size" =
      some (.int (seg.stripeSize / lvmSector : Nat)) := by
    rw [get_stripes (by simp), entries]
    rfl
  have listed : seg.toMetadata.get "stripes" = some (.list (seg.stripes.flatMap fun stripe =>
      [.str stripe.pv, .int stripe.startExtent])) := by
    rw [get_stripes (by simp), entries]
    rfl
  have pairs (error : LvmError) : pairsOf stripePair error (seg.stripes.flatMap fun stripe =>
      [.str stripe.pv, .int stripe.startExtent]) = .ok seg.stripes := by
    refine pairsOf_flatMap error fun stripe _ => ?_
    have positive : (0 : Int) ≤ stripe.startExtent := Int.natCast_nonneg _
    unfold stripePair
    dsimp only
    rw [if_pos positive]
    rfl
  have some_count : ¬ (seg.stripes.length ≠ seg.stripes.length ∨ seg.stripes.length = 0) := by
    simpa using some_stripes
  unfold segmentStripes
  rw [Section.listOf_of_get listed, ok_bind, pairs, ok_bind, Section.uint_of_get count, ok_bind,
    refuseIf_of_not some_count, ok_bind]
  split
  next several =>
    rw [if_pos several] at size
    rw [sectorBytes_of_get size sized, ok_bind]
    exact dif_pos (seg.sized several)
  next single =>
    rw [if_neg single] at size
    simp only [size]

theorem get_map_singleton {α : Type} {items : List α} (one : items.length = 1) (key : String)
    (value : α → Value) :
    ∃ item, items = [item] ∧
      Section.get (items.map fun item => (key, value item)) key = some (value item) := by
  obtain ⟨item, rfl⟩ := List.length_eq_one_iff.mp one
  refine ⟨item, rfl, ?_⟩
  rw [List.map_cons, Section.get_cons, if_pos rfl]

/-- The sub-volumes of a segment are read as they are written. -/
theorem segmentImages_toMetadata {seg : Segment} (described : seg.ImagesDescribed)
    (place : String) :
    segmentImages seg.toMetadata seg.kind place = .ok (seg.metadata, seg.images) := by
  unfold Segment.ImagesDescribed at described
  unfold segmentImages
  by_cases raid : seg.kind.startsWith "raid" = true
  · have listed : seg.toMetadata.get "raids" = some (.list
        ((seg.metadata.zip seg.images).flatMap fun pair => [.str pair.1, .str pair.2])) := by
      rw [get_images (by simp), imageEntries, if_pos raid]
      rfl
    rw [if_pos raid] at described
    rw [if_pos raid, Section.listOf_of_get listed, ok_bind,
      pairsOf_flatMap _ fun _ _ => rfl, ok_bind, List.map_fst_zip described.le,
      List.map_snd_zip described.ge]
  rw [if_neg raid] at described
  rw [if_neg raid]
  by_cases thin : seg.kind = "thin-pool"
  · rw [if_pos thin] at described
    have entries : imageEntries seg = seg.metadata.map (fun tmeta => ("metadata", .str tmeta)) ++
        seg.images.map fun pool => ("pool", .str pool) := by
      rw [imageEntries, if_neg raid, if_pos thin]
    obtain ⟨tmeta, metadata, under⟩ := get_map_singleton described.1 "metadata" .str
    obtain ⟨pool, images, behind⟩ := get_map_singleton described.2 "pool" .str
    have first : seg.toMetadata.get "metadata" = some (.str tmeta) := by
      rw [get_images (by simp), entries, Section.get_append, under]
      rfl
    have second : seg.toMetadata.get "pool" = some (.str pool) := by
      rw [get_images (by simp), entries, Section.get_append, get_map_of_ne (by decide), behind]
      rfl
    rw [if_pos thin, Section.str_of_get first, ok_bind, Section.str_of_get second, ok_bind,
      metadata, images]
  rw [if_neg thin] at described
  rw [if_neg thin]
  by_cases mirror : seg.kind = "mirror"
  · rw [if_pos mirror] at described
    have listed : seg.toMetadata.get "mirrors" = some (.list
        (seg.images.flatMap fun image => [.str image, .int 0])) := by
      rw [get_images (by simp), imageEntries, if_neg raid, if_neg thin, if_pos mirror]
      rfl
    rw [if_pos mirror, Section.listOf_of_get listed, ok_bind,
      pairsOf_flatMap _ fun _ _ => rfl, ok_bind, described]
  · rw [if_neg mirror] at described
    rw [if_neg mirror, described.1, described.2]

/-- The stripes of a segment; only a striped one has some. -/
def stripesOf (entries : Section) (kind place : String) :
    Except LvmError { found : List Stripe × Nat // 1 < found.1.length → 0 < found.2 } :=
  if kind = "striped" then segmentStripes entries place
  else .ok ⟨([], 0), unstriped_sized⟩

/-- A segment is read when each of its parts is. -/
theorem segmentFromMetadata_eq_ok {lvName key : String} {entries : Section} {seg : Segment} :
    segmentFromMetadata lvName key entries = .ok seg ↔
      entries.str "type" = .ok seg.kind ∧
        stripesOf entries seg.kind s!"{lvName}/{key}" =
          .ok ⟨(seg.stripes, seg.stripeSize), seg.sized⟩ ∧
        segmentImages entries seg.kind s!"{lvName}/{key}" = .ok (seg.metadata, seg.images) ∧
        entries.uint "start_extent" = .ok seg.startExtent ∧
        entries.uint "extent_count" = .ok seg.extentCount ∧
        (entries.str "thin_pool").toOption = seg.thinPool ∧
        (entries.uint "device_id").toOption = seg.deviceId ∧
        (entries.str "external_origin").toOption = seg.externalOrigin := by
  have same : segmentFromMetadata lvName key entries = (do
      let kind ← entries.str "type"
      let striped ← stripesOf entries kind s!"{lvName}/{key}"
      let imaged ← segmentImages entries kind s!"{lvName}/{key}"
      let startExtent ← entries.uint "start_extent"
      let extentCount ← entries.uint "extent_count"
      .ok {
        startExtent
        extentCount
        kind
        stripeSize := striped.1.2
        stripes := striped.1.1
        images := imaged.2
        metadata := imaged.1
        thinPool := (entries.str "thin_pool").toOption
        deviceId := (entries.uint "device_id").toOption
        externalOrigin := (entries.str "external_origin").toOption
        sized := striped.2 }) := by
    unfold segmentFromMetadata stripesOf
    rcases entries.str "type" with error | kind
    · rfl
    · simp only [ok_bind]
      split
      next => rfl
      next => rfl
  rw [same]
  constructor
  · intro read
    obtain ⟨kind, type, read⟩ := bind_eq_ok.mp read
    obtain ⟨⟨⟨stripes, size⟩, sized⟩, striped, read⟩ := bind_eq_ok.mp read
    obtain ⟨⟨metadata, images⟩, imaged, read⟩ := bind_eq_ok.mp read
    obtain ⟨start, starts, read⟩ := bind_eq_ok.mp read
    obtain ⟨count, counts, read⟩ := bind_eq_ok.mp read
    cases read
    exact ⟨type, striped, imaged, starts, counts, rfl, rfl, rfl⟩
  · rintro ⟨type, striped, imaged, starts, counts, thinPool, deviceId, origin⟩
    rw [type, ok_bind, striped, ok_bind, imaged, ok_bind]
    dsimp only
    rw [starts, ok_bind, counts, ok_bind, thinPool, deviceId, origin]

/-- A segment is read as it is written. -/
theorem segmentFromMetadata_toMetadata {seg : Segment} (described : seg.Described)
    (lvName key : String) : segmentFromMetadata lvName key seg.toMetadata = .ok seg := by
  obtain ⟨type, start, count⟩ := get_toMetadata seg
  obtain ⟨thinPool, deviceId, origin⟩ := get_optional seg
  have striped : stripesOf seg.toMetadata seg.kind s!"{lvName}/{key}" =
      .ok ⟨(seg.stripes, seg.stripeSize), seg.sized⟩ := by
    unfold stripesOf
    split
    next striped => exact segmentStripes_toMetadata striped described.stripes _
    next other =>
      have stripes := described.stripes
      unfold Segment.StripesDescribed at stripes
      rw [if_neg other] at stripes
      simp only [stripes.1, stripes.2]
  have text {key : String} {found : Option String}
      (under : seg.toMetadata.get key = found.map .str) :
      (seg.toMetadata.str key).toOption = found := by
    cases found with
    | none =>
        unfold Section.str
        rw [under]
        rfl
    | some found =>
        rw [Section.str_of_get under]
        rfl
  have device : (seg.toMetadata.uint "device_id").toOption = seg.deviceId := by
    cases id : seg.deviceId with
    | none =>
        unfold Section.uint Section.int
        rw [deviceId, id]
        rfl
    | some found =>
        rw [id] at deviceId
        rw [Section.uint_of_get deviceId]
        rfl
  exact segmentFromMetadata_eq_ok.mpr ⟨Section.str_of_get type, striped,
    segmentImages_toMetadata described.images _, Section.uint_of_get start,
    Section.uint_of_get count, text thinPool, device, text origin⟩

/-! ## What is read can be described -/

theorem segmentStripes_eq_ok {entries : Section} {place : String}
    {found : { found : List Stripe × Nat // 1 < found.1.length → 0 < found.2 }}
    (read : segmentStripes entries place = .ok found) :
    ∃ listed, entries.get "stripes" = some (.list listed) ∧
      pairsOf stripePair (.corrupt s!"{place}: stripes list") listed = .ok found.1.1 ∧
      entries.uint "stripe_count" = .ok found.1.1.length ∧ found.1.1 ≠ [] ∧
      if 1 < found.1.1.length then Sectors found.1.2 else found.1.2 = 0 := by
  unfold segmentStripes at read
  obtain ⟨listed, under, read⟩ := bind_eq_ok.mp read
  obtain ⟨stripes, pairs, read⟩ := bind_eq_ok.mp read
  obtain ⟨count, counted, read⟩ := bind_eq_ok.mp read
  obtain ⟨same, rest⟩ := refuseIf_bind_eq_ok.mp read
  rw [not_or, not_not] at same
  obtain ⟨rfl, some_stripes⟩ := same
  have nonempty : stripes ≠ [] := fun empty => some_stripes (by rw [empty]; rfl)
  refine ⟨listed, Section.listOf_eq_ok under, ?_⟩
  split at rest
  next several =>
    obtain ⟨size, sized, rest⟩ := bind_eq_ok.mp rest
    split at rest
    next positive =>
      cases rest
      rw [if_pos several]
      exact ⟨pairs, counted, nonempty, sectorBytes_eq_ok sized⟩
    next => cases rest
  next single =>
    cases rest
    rw [if_neg single]
    exact ⟨pairs, counted, nonempty, rfl⟩

theorem stripes_described {left : Nat} {entries : Section} (tree : Tree left entries)
    {place : String} {seg : Segment}
    (read : stripesOf entries seg.kind place = .ok ⟨(seg.stripes, seg.stripeSize), seg.sized⟩) :
    seg.StripesDescribed := by
  unfold stripesOf at read
  unfold Segment.StripesDescribed
  split at read
  next striped =>
    obtain ⟨listed, under, pairs, counted, some_stripes, size⟩ := segmentStripes_eq_ok read
    rw [if_pos striped]
    refine ⟨some_stripes, tree.uint counted, ?_, size⟩
    intro stripe member
    obtain ⟨pv, _, extent, extentIn, picked⟩ := mem_pairsOf pairs stripe member
    have plain := tree.plain under (fun body same => by cases same)
    cases plain with
    | list each =>
        have small := each extent extentIn
        unfold stripePair at picked
        split at picked
        next text value =>
          split at picked
          next positive =>
            cases picked
            cases small with
            | int least most =>
                dsimp only
                omega
          next => cases picked
        next => cases picked
  next other =>
    rw [if_neg other]
    obtain ⟨stripes, size⟩ := Prod.mk.inj (congrArg Subtype.val (Except.ok.inj read))
    exact ⟨stripes.symm, size.symm⟩

theorem images_described {entries : Section} {place : String} {seg : Segment}
    (read : segmentImages entries seg.kind place = .ok (seg.metadata, seg.images)) :
    seg.ImagesDescribed := by
  unfold segmentImages at read
  unfold Segment.ImagesDescribed
  split at read
  next raid =>
    rw [if_pos raid]
    obtain ⟨listed, _, read⟩ := bind_eq_ok.mp read
    obtain ⟨pairs, _, read⟩ := bind_eq_ok.mp read
    obtain ⟨metadata, images⟩ := Prod.mk.inj (Except.ok.inj read)
    rw [← metadata, ← images, List.length_map, List.length_map]
  next raid =>
    rw [if_neg raid]
    split at read
    next thin =>
      rw [if_pos thin]
      obtain ⟨tmeta, _, read⟩ := bind_eq_ok.mp read
      obtain ⟨pool, _, read⟩ := bind_eq_ok.mp read
      obtain ⟨metadata, images⟩ := Prod.mk.inj (Except.ok.inj read)
      rw [← metadata, ← images]
      exact ⟨rfl, rfl⟩
    next thin =>
      rw [if_neg thin]
      split at read
      next mirror =>
        rw [if_pos mirror]
        obtain ⟨listed, _, read⟩ := bind_eq_ok.mp read
        obtain ⟨pairs, _, read⟩ := bind_eq_ok.mp read
        exact (Prod.mk.inj (Except.ok.inj read)).1.symm
      next mirror =>
        rw [if_neg mirror]
        obtain ⟨metadata, images⟩ := Prod.mk.inj (Except.ok.inj read)
        exact ⟨metadata.symm, images.symm⟩

/-- A segment that is read can be described. -/
theorem segment_described {left : Nat} {entries : Section} (tree : Tree left entries)
    {lvName key : String} {seg : Segment}
    (read : segmentFromMetadata lvName key entries = .ok seg) : seg.Described := by
  obtain ⟨_, striped, imaged, starts, counts, _, device, _⟩ := segmentFromMetadata_eq_ok.mp read
  refine ⟨tree.uint starts, tree.uint counts, ?_, stripes_described tree striped,
    images_described imaged⟩
  intro id own
  rw [Option.mem_def, ← device] at own
  rcases found : entries.uint "device_id" with error | value
  · rw [found] at own
    cases own
  · rw [found] at own
    cases own
    exact tree.uint found

theorem volume_described {left : Nat} {entries : Section} (tree : Tree left entries)
    {key : String} (name : Parser.Name key) {lv : LogicalVolumeInfo}
    (read : volumeFromMetadata (key, entries) = .ok lv) : lv.Described := by
  unfold volumeFromMetadata at read
  obtain ⟨segments, each, read⟩ := bind_eq_ok.mp read
  cases read
  constructor
  · exact name
  · intro seg member
    rw [List.mem_insertionSort] at member
    obtain ⟨⟨place, body⟩, listed, own⟩ :=
      Slices.exists_of_mem_right (mapM_eq_ok each) member
    obtain ⟨_, inner, below⟩ := tree.inside (Section.mem_sections.mp (List.mem_filter.mp listed).1)
    exact segment_described below own
  · exact List.pairwise_insertionSort _ segments

theorem pv_described {left : Nat} {entries : Section} (tree : Tree left entries)
    {key : String} (name : Parser.Name key) {pv : PhysicalVolume}
    (read : pvFromMetadata (key, entries) = .ok pv) : pv.Described := by
  unfold pvFromMetadata at read
  obtain ⟨id, _, read⟩ := bind_eq_ok.mp read
  obtain ⟨start, starts, read⟩ := bind_eq_ok.mp read
  obtain ⟨count, counts, read⟩ := bind_eq_ok.mp read
  cases read
  refine ⟨name, ?_, sectorBytes_eq_ok starts, tree.uint counts⟩
  rw [String.toList_ofList, List.mem_filter]
  simp

/-- The sections under a key of a tree, each of which is a tree. -/
theorem Tree.sections {left : Nat} {entries : Section} (tree : Tree left entries) {key : String}
    {body : Section} (member : (key, body) ∈ Section.sections entries) :
    Parser.Name key ∧ ∃ inner, Tree inner body :=
  tree.inside (Section.mem_sections.mp member)

/-- A volume group that is read from a tree can be described. -/
theorem group_described {left : Nat} {top : Section} (tree : Tree left top) {vg : VolumeGroup}
    (read : VolumeGroup.fromMetadata top = .ok vg) : vg.Described := by
  unfold VolumeGroup.fromMetadata at read
  obtain ⟨⟨name, body⟩, first, read⟩ := bind_eq_ok.mp read
  obtain ⟨named, _, own⟩ := tree.sections (List.mem_of_head? (orRefuse_eq_ok.mp first))
  obtain ⟨extentSize, extents, read⟩ := bind_eq_ok.mp read
  split at read
  next positive =>
    obtain ⟨pvs, under, read⟩ := bind_eq_ok.mp read
    obtain ⟨physicalVolumes, physical, read⟩ := bind_eq_ok.mp read
    obtain ⟨logicalVolumes, logical, read⟩ := bind_eq_ok.mp read
    obtain ⟨id, _, read⟩ := bind_eq_ok.mp read
    obtain ⟨seqno, counted, read⟩ := bind_eq_ok.mp read
    cases read
    refine ⟨named, own.uint counted, sectorBytes_eq_ok extents, ?_, ?_⟩
    · intro pv member
      obtain ⟨⟨key, entries⟩, listed, found⟩ :=
        Slices.exists_of_mem_right (mapM_eq_ok physical) member
      obtain ⟨_, _, inner⟩ := own.inside (Section.mem_of_get (Section.inner_eq_ok under))
      obtain ⟨keyed, _, below⟩ := inner.sections listed
      exact pv_described below keyed found
    · intro lv member
      obtain ⟨⟨key, entries⟩, listed, found⟩ :=
        Slices.exists_of_mem_right (mapM_eq_ok logical) member
      split at listed
      next lvs under =>
        obtain ⟨_, _, inner⟩ := own.inside (Section.mem_of_get under)
        obtain ⟨keyed, _, below⟩ := inner.sections listed
        exact volume_described below keyed found
      next => cases listed
  next => cases read

/-! ## What can be described is read -/

/-- The keys of the metadata, that of a segment without its number. -/
def metadataKeys : List String :=
  ["id", "seqno", "extent_size", "physical_volumes", "logical_volumes", "pe_start", "pe_count",
    "segment", "type", "start_extent", "extent_count", "thin_pool", "device_id",
    "external_origin", "stripe_count", "stripe_size", "stripes", "raids", "metadata", "pool",
    "mirrors"]

theorem name_of_key {key : String} (listed : key ∈ metadataKeys) : Parser.Name key := by
  have each : ∀ key ∈ metadataKeys,
      asBytes key ≠ [] ∧ ∀ c ∈ asBytes key, Parser.isName c = true := by
    decide +kernel
  exact ⟨(each key listed).1, (each key listed).2⟩

theorem Parser.name_of_digits {digits : List UInt8} (each : ∀ c ∈ digits, isDigit c = true) :
    ∀ c ∈ digits, isName c = true := by
  intro c member
  unfold isName
  rw [each c member]
  rfl

/-- The key of a numbered segment. -/
theorem name_segment (n : Nat) : Parser.Name ("segment" ++ toString n) := by
  have bytes : asBytes ("segment" ++ toString n) = asBytes "segment" ++ asBytes n.repr :=
    asBytes_append "segment" (toString n)
  have front : Parser.Name "segment" := name_of_key (by simp [metadataKeys])
  obtain ⟨_, digits, _⟩ := Parser.asBytes_repr n
  constructor
  · rw [bytes]
    exact List.append_ne_nil_of_left_ne_nil front.ne _
  · intro c member
    rw [bytes] at member
    rcases List.mem_append.mp member with head | tail
    · exact front.named c head
    · exact Parser.name_of_digits digits c tail

theorem startsWith_segment (n : Nat) :
    ("segment" ++ toString n).startsWith "segment" = true := by
  rw [String.startsWith_string_iff, String.toList_append]
  exact List.prefix_append _ _

theorem volumeFromMetadata_toMetadata {lv : LogicalVolumeInfo} (described : lv.Described) :
    volumeFromMetadata (lv.name, lv.toMetadata) = .ok lv := by
  have listed : Section.sections lv.toMetadata = (lv.segments.zipIdx 1).map fun entry =>
      ("segment" ++ toString entry.2, entry.1.toMetadata) :=
    Section.sections_map (lv.segments.zipIdx 1) (fun entry => "segment" ++ toString entry.2)
      fun entry => entry.1.toMetadata
  have kept : (Section.sections lv.toMetadata).filter (fun entry => entry.1.startsWith "segment") =
      Section.sections lv.toMetadata := by
    rw [List.filter_eq_self, listed]
    intro entry member
    obtain ⟨own, _, rfl⟩ := List.mem_map.mp member
    exact startsWith_segment own.2
  have each : (Section.sections lv.toMetadata).mapM
      (fun entry => segmentFromMetadata lv.name entry.1 entry.2) = .ok lv.segments := by
    rw [listed, List.mapM_map]
    have passes : ∀ entry ∈ lv.segments.zipIdx 1, segmentFromMetadata lv.name
        ("segment" ++ toString entry.2) entry.1.toMetadata = .ok entry.1 := by
      intro entry member
      exact segmentFromMetadata_toMetadata
        (described.segments entry.1 (List.fst_mem_of_mem_zipIdx member)) _ _
    have all := mapM_of_forall passes
    rw [List.zipIdx_map_fst] at all
    exact all
  have id : (lv.toMetadata.str "id") = .ok lv.id := by
    refine Section.str_of_get ?_
    rw [LogicalVolumeInfo.toMetadata, Section.get_cons, if_pos rfl]
  unfold volumeFromMetadata
  dsimp only
  rw [kept, each, ok_bind, id, described.ordered.insertionSort_eq]
  rfl

theorem pvFromMetadata_toMetadata {pv : PhysicalVolume} (described : pv.Described) :
    pvFromMetadata (pv.name, pv.toMetadata) = .ok pv := by
  have id : pv.toMetadata.str "id" = .ok pv.uuid := Section.str_of_get rfl
  have start : sectorBytes pv.toMetadata "pe_start" = .ok pv.peStart :=
    sectorBytes_of_get described.start rfl
  have count : pv.toMetadata.uint "pe_count" = .ok pv.peCount := Section.uint_of_get rfl
  have dashes : pv.uuid.toList.filter (· ≠ '-') = pv.uuid.toList := by
    rw [List.filter_eq_self]
    intro c member
    rw [decide_eq_true_iff]
    rintro rfl
    exact described.uuid member
  unfold pvFromMetadata
  dsimp only
  rw [id, ok_bind, start, ok_bind, count, ok_bind, dashes, String.ofList_toList]

/-- A volume group is read as it is written. -/
theorem fromMetadata_toMetadata {vg : VolumeGroup} (described : vg.Described) :
    VolumeGroup.fromMetadata vg.toMetadata = .ok vg := by
  have physical : (vg.physicalVolumes.map fun pv => (pv.name, pv.toMetadata)).mapM pvFromMetadata =
      .ok vg.physicalVolumes := by
    have all := @mapM_of_forall _ _ _ _ id vg.physicalVolumes fun pv member =>
      pvFromMetadata_toMetadata (described.physical pv member)
    rw [List.map_id] at all
    rw [List.mapM_map]
    exact all
  have logical : (vg.logicalVolumes.map fun lv => (lv.name, lv.toMetadata)).mapM
      volumeFromMetadata = .ok vg.logicalVolumes := by
    have all := @mapM_of_forall _ _ _ _ id vg.logicalVolumes fun lv member =>
      volumeFromMetadata_toMetadata (described.logical lv member)
    rw [List.map_id] at all
    rw [List.mapM_map]
    exact all
  have front : orRefuse (Section.sections vg.toMetadata).head?
      (LvmError.corrupt "no volume group section") = .ok (vg.name, vg.body) := rfl
  have extents : sectorBytes vg.body "extent_size" = .ok vg.extentSize :=
    sectorBytes_of_get described.extents rfl
  have pvs : vg.body.inner "physical_volumes" =
      .ok (vg.physicalVolumes.map fun pv => (pv.name, .nested pv.toMetadata)) := rfl
  have lvs : vg.body.get "logical_volumes" =
      some (.nested (vg.logicalVolumes.map fun lv => (lv.name, .nested lv.toMetadata))) := rfl
  have listed := Section.sections_map vg.physicalVolumes PhysicalVolume.name
    PhysicalVolume.toMetadata
  have volumes := Section.sections_map vg.logicalVolumes LogicalVolumeInfo.name
    LogicalVolumeInfo.toMetadata
  have id : vg.body.str "id" = .ok vg.id := rfl
  have seqno : vg.body.uint "seqno" = .ok vg.seqno := Section.uint_of_get rfl
  unfold VolumeGroup.fromMetadata
  rw [front, ok_bind]
  dsimp only
  rw [extents, ok_bind, dif_pos vg.extentSize_pos, pvs, ok_bind, listed, physical, ok_bind, lvs]
  dsimp only
  rw [volumes, logical, ok_bind, id, ok_bind, seqno, ok_bind]

/-! ## What is written is a tree -/

theorem tree_append {left : Nat} {first second : Section} (head : Tree left first)
    (tail : Tree left second) : Tree left (first ++ second) := by
  induction head with
  | empty => exact tail
  | value name own later ih => exact .value name own (ih tail)
  | nested name own later ihOwn ih => exact .nested name own (ih tail)

theorem tree_map {α : Type} {left : Nat} {items : List α} {key : α → String}
    {body : α → Section} (name : ∀ item ∈ items, Parser.Name (key item))
    (own : ∀ item ∈ items, Tree left (body item)) :
    Tree (left + 1) (items.map fun item => (key item, .nested (body item))) := by
  induction items with
  | nil => exact .empty
  | cons item rest ih =>
      exact .nested (name item List.mem_cons_self) (own item List.mem_cons_self)
        (ih (fun other member => name other (List.mem_cons_of_mem item member))
          fun other member => own other (List.mem_cons_of_mem item member))

theorem plain_nat {n : Nat} (small : n < 2 ^ 63) : Plain (.int n) :=
  .int (by omega) (by omega)

theorem tree_optionalEntry {left : Nat} {key : String} (name : Parser.Name key)
    {found : Option Value} (own : ∀ value ∈ found, Plain value) :
    Tree left (optionalEntry key found) := by
  cases found with
  | none => exact .empty
  | some value => exact .value name (own value rfl) .empty

theorem tree_strings {left : Nat} {key : String} (name : Parser.Name key) (texts : List String) :
    Tree left (texts.map fun text => (key, .str text)) := by
  induction texts with
  | nil => exact .empty
  | cons text rest ih => exact .value name (.str text) ih

theorem tree_stripeEntries {left : Nat} {seg : Segment} (described : seg.StripesDescribed) :
    Tree left (stripeEntries seg) := by
  unfold Segment.StripesDescribed at described
  unfold stripeEntries
  split
  next striped =>
    rw [if_pos striped] at described
    obtain ⟨_, short, small, size⟩ := described
    have fits : seg.stripeSize / lvmSector < 2 ^ 63 := by
      split at size
      next => exact size.div_lt
      next =>
        rw [size]
        decide
    refine .value (name_of_key (by simp [metadataKeys])) (plain_nat short)
      (.value (name_of_key (by simp [metadataKeys])) (plain_nat fits)
        (.value (name_of_key (by simp [metadataKeys])) (.list ?_) .empty))
    intro item member
    obtain ⟨stripe, listed, member⟩ := List.mem_flatMap.mp member
    simp only [List.mem_cons, List.not_mem_nil, or_false] at member
    rcases member with rfl | rfl
    · exact .str stripe.pv
    · exact plain_nat (small stripe listed)
  next => exact .empty

theorem tree_imageEntries {left : Nat} (seg : Segment) : Tree left (imageEntries seg) := by
  unfold imageEntries
  split
  next =>
    refine .value (name_of_key (by simp [metadataKeys])) (.list ?_) .empty
    intro item member
    obtain ⟨pair, _, member⟩ := List.mem_flatMap.mp member
    simp only [List.mem_cons, List.not_mem_nil, or_false] at member
    rcases member with rfl | rfl
    · exact .str pair.1
    · exact .str pair.2
  next =>
    split
    next =>
      exact tree_append (tree_strings (name_of_key (by simp [metadataKeys])) seg.metadata)
        (tree_strings (name_of_key (by simp [metadataKeys])) seg.images)
    next =>
      split
      next =>
        refine .value (name_of_key (by simp [metadataKeys])) (.list ?_) .empty
        intro item member
        obtain ⟨image, _, member⟩ := List.mem_flatMap.mp member
        simp only [List.mem_cons, List.not_mem_nil, or_false] at member
        rcases member with rfl | rfl
        · exact .str image
        · exact plain_nat (by decide)
      next => exact .empty

theorem tree_segment {left : Nat} {seg : Segment} (described : seg.Described) :
    Tree left seg.toMetadata := by
  have text (found : Option String) : ∀ value ∈ found.map Value.str, Plain value := by
    intro value own
    obtain ⟨text, _, rfl⟩ := Option.map_eq_some_iff.mp own
    exact .str text
  have device : ∀ value ∈ seg.deviceId.map fun id : Nat => Value.int id, Plain value := by
    intro value own
    obtain ⟨id, some_id, rfl⟩ := Option.map_eq_some_iff.mp own
    exact plain_nat (described.device id some_id)
  have head : Tree left [("type", .str seg.kind), ("start_extent", .int seg.startExtent),
      ("extent_count", .int seg.extentCount)] :=
    .value (name_of_key (by simp [metadataKeys])) (.str seg.kind)
      (.value (name_of_key (by simp [metadataKeys])) (plain_nat described.start)
        (.value (name_of_key (by simp [metadataKeys])) (plain_nat described.count) .empty))
  unfold Segment.toMetadata
  refine tree_append (tree_append (tree_append (tree_append (tree_append head ?_) ?_) ?_) ?_)
    (tree_imageEntries seg)
  · exact tree_optionalEntry (name_of_key (by simp [metadataKeys])) (text seg.thinPool)
  · exact tree_optionalEntry (name_of_key (by simp [metadataKeys])) device
  · exact tree_optionalEntry (name_of_key (by simp [metadataKeys])) (text seg.externalOrigin)
  · exact tree_stripeEntries described.stripes

theorem tree_volume {left : Nat} {lv : LogicalVolumeInfo} (described : lv.Described) :
    Tree (left + 1) lv.toMetadata := by
  refine .value (name_of_key (by simp [metadataKeys])) (.str lv.id) (tree_map ?_ ?_)
  · intro entry _
    exact name_segment entry.2
  · intro entry member
    exact tree_segment (described.segments entry.1 (List.fst_mem_of_mem_zipIdx member))

theorem tree_pv {left : Nat} {pv : PhysicalVolume} (described : pv.Described) :
    Tree left pv.toMetadata :=
  .value (name_of_key (by simp [metadataKeys])) (.str pv.uuid)
    (.value (name_of_key (by simp [metadataKeys])) (plain_nat described.start.div_lt)
      (.value (name_of_key (by simp [metadataKeys])) (plain_nat described.count) .empty))

/-- Segments are nested in volumes, volumes in their list and the list in the group. -/
theorem tree_group {left : Nat} {vg : VolumeGroup} (described : vg.Described) :
    Tree (left + 4) vg.toMetadata := by
  have physical : Tree (left + 2) (vg.physicalVolumes.map fun pv =>
      (pv.name, .nested pv.toMetadata)) :=
    tree_map (fun pv member => (described.physical pv member).name)
      fun pv member => tree_pv (described.physical pv member)
  have logical : Tree (left + 2) (vg.logicalVolumes.map fun lv =>
      (lv.name, .nested lv.toMetadata)) :=
    tree_map (fun lv member => (described.logical lv member).name)
      fun lv member => tree_volume (described.logical lv member)
  have body : Tree (left + 3) vg.body :=
    .value (name_of_key (by simp [metadataKeys])) (.str vg.id)
      (.value (name_of_key (by simp [metadataKeys])) (plain_nat described.seqno)
        (.value (name_of_key (by simp [metadataKeys])) (plain_nat described.extents.div_lt)
          (.nested (name_of_key (by simp [metadataKeys])) physical
            (.nested (name_of_key (by simp [metadataKeys])) logical .empty))))
  exact .nested described.name body .empty

/-! ## The groups that are read -/

theorem described_of_text {text : String} {vg : VolumeGroup}
    (read : (parseMetadata text >>= VolumeGroup.fromMetadata) = .ok vg) : vg.Described := by
  obtain ⟨top, parsed, group⟩ := bind_eq_ok.mp read
  exact group_described (tree_of_parseMetadata parsed) group

theorem text_of_described {vg : VolumeGroup} (described : vg.Described) :
    (parseMetadata vg.toText >>= VolumeGroup.fromMetadata) = .ok vg := by
  have tree : Tree 31 vg.toMetadata := tree_group described
  rw [VolumeGroup.toText, parseMetadata_of_tree tree, ok_bind, fromMetadata_toMetadata described]

/-- A volume group is what some metadata text is read as exactly when its numbers, names and
segments are as above, and exactly then its own text is read as it. -/
theorem fromMetadata_toText (vg : VolumeGroup) :
    ((∃ text, (parseMetadata text >>= VolumeGroup.fromMetadata) = .ok vg) ↔ vg.Described) ∧
      ((parseMetadata vg.toText >>= VolumeGroup.fromMetadata) = .ok vg ↔ vg.Described) := by
  constructor
  · constructor
    · rintro ⟨text, read⟩
      exact described_of_text read
    · intro described
      exact ⟨vg.toText, text_of_described described⟩
  · constructor
    · intro read
      exact described_of_text read
    · intro described
      exact text_of_described described

end DiskPartitions
