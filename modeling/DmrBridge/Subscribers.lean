import DmrBridge.MetadataLatch
import DmrBridge.Lib.FixedText
import DmrBridge.Lib.Run
import Mathlib.Data.List.ReduceOption

/-!
# Callsigns and names

`dmr_subscriber` and the task that loads its file again while calls go on. The voice machine looks
talkers up in whatever table is in force.
-/

open FixedText Run

namespace DmrBridge

structure CsvRow where
  radioId : UInt32
  callsign : String
  firstName : String
  lastName : String
  city : String
  state : String
  country : String

structure Subscriber where
  dmrId : SubscriberId
  callsign : String
  firstName : String
  lastName : String
  city : String
  state : String
  country : String

def maxFieldLen : Nat := 64

/-- `while !t.is_char_boundary(cut)` -/
def boundaryUpTo (s : String) : Nat → s.Pos
  | 0 => s.startPos
  | cut + 1 => if h : (String.Pos.Raw.mk (cut + 1)).IsValid s then ⟨⟨cut + 1⟩, h⟩ else boundaryUpTo s cut

def capField (s : String) : String × Bool :=
  if s.utf8ByteSize ≤ maxFieldLen then (s, false) else (s.extract s.startPos (boundaryUpTo s maxFieldLen), true)

def CsvRow.intoSubscriber (row : CsvRow) (dmrId : SubscriberId) : Subscriber × Bool :=
  let (callsign, c1) := capField row.callsign
  let (firstName, c2) := capField row.firstName
  let (lastName, c3) := capField row.lastName
  let (city, c4) := capField row.city
  let (state, c5) := capField row.state
  let (country, c6) := capField row.country
  ({ dmrId, callsign, firstName, lastName, city, state, country }, c1 || c2 || c3 || c4 || c5 || c6)

/-- `by_id` -/
abbrev Subscribers := SubscriberId → Option Subscriber

namespace Subscribers

def empty : Subscribers := fun _ => none

/-- `none` is a row that does not parse. -/
def insertRow (subs : Subscribers) : Option CsvRow → Subscribers
  | none => subs
  | some row =>
    match SubscriberId.tryFrom row.radioId with
    | .ok id => Function.update subs id (some (row.intoSubscriber id).1)
    | .error _ => subs

def fromReader (rows : List (Option CsvRow)) : Subscribers := rows.foldl insertRow empty

/-- The closure behind `callsign_lookup`. -/
def lookup (subs : Subscribers) (id : SubscriberId) : Option (String × String) :=
  (subs id).map fun s => (s.callsign, s.firstName)

end Subscribers

/-! ## Fields -/

/-- The longest text of whole characters that `value` starts with and that fits. -/
def Capped (value kept : String) : Prop :=
  ∃ rest, value = kept ++ rest ∧ kept.utf8ByteSize ≤ maxFieldLen ∧
    ∀ longer rest', value = longer ++ rest' → longer.utf8ByteSize ≤ maxFieldLen →
      longer.utf8ByteSize ≤ kept.utf8ByteSize

theorem boundaryUpTo_spec (s : String) (n : Nat) :
    (boundaryUpTo s n).offset.byteIdx ≤ n ∧
      ∀ j ≤ n, (String.Pos.Raw.mk j).IsValid s → j ≤ (boundaryUpTo s n).offset.byteIdx := by
  induction n with
  | zero => exact ⟨Nat.le_refl 0, fun j hj _ => hj⟩
  | succ n ih =>
    unfold boundaryUpTo
    split
    · exact ⟨Nat.le_refl _, fun j hj _ => hj⟩
    · rename_i hinside
      refine ⟨Nat.le_succ_of_le ih.1, fun j hj hvalid => ?_⟩
      rcases Nat.lt_or_eq_of_le hj with hlt | rfl
      · exact ih.2 j (Nat.le_of_lt_succ hlt) hvalid
      · exact absurd hvalid hinside

theorem capField_spec (s : String) :
    Capped s (capField s).1 ∧ ((capField s).2 = true ↔ maxFieldLen < s.utf8ByteSize) := by
  unfold capField
  split
  · rename_i hfits
    refine ⟨⟨"", (String.append_empty).symm, hfits, fun longer rest hlonger _ => ?_⟩, by simp [hfits]⟩
    rw [hlonger, String.utf8ByteSize_append]
    exact Nat.le_add_right _ _
  · rename_i hlong
    obtain ⟨hle, hlast⟩ := boundaryUpTo_spec s maxFieldLen
    obtain ⟨rest, hsplit, hsize⟩ := extract_boundary (boundaryUpTo s maxFieldLen).isValid
    refine ⟨⟨rest, hsplit, hsize.trans_le hle, fun longer rest' hlonger hfits => ?_⟩, by simpa using hlong⟩
    refine (hlast _ hfits ?_).trans hsize.ge
    rw [hlonger]
    exact isValid_of_append

/-- What is shown of a text is nothing only where the text is empty: the first character always fits. -/
theorem Capped.eq_empty_iff {value kept : String} (h : Capped value kept) : kept = "" ↔ value = "" := by
  obtain ⟨rest, hsplit, hfits, hlongest⟩ := h
  constructor
  · rintro rfl
    cases hchars : value.toList with
    | nil => rw [← String.ofList_toList (s := value), hchars]
    | cons c cs =>
      have hfirst : value = String.singleton c ++ String.ofList cs := by
        rw [← String.ofList_toList (s := value), hchars, String.singleton_eq_ofList, ← String.ofList_append]
        rfl
      have hsize : (String.singleton c).utf8ByteSize ≤ maxFieldLen := by
        rw [String.utf8ByteSize_singleton]
        exact (Char.utf8Size_le_four c).trans (by decide)
      have hpos : 0 < (String.singleton c).utf8ByteSize := by
        rw [String.utf8ByteSize_singleton]
        exact c.utf8Size_pos
      exact absurd (hlongest _ _ hfirst hsize) (Nat.not_le.mpr hpos)
  · rintro rfl
    have hzero : kept.utf8ByteSize = 0 := by
      have hsum := congrArg String.utf8ByteSize hsplit
      rw [String.utf8ByteSize_append] at hsum
      exact (Nat.add_eq_zero_iff.mp hsum.symm).1
    exact String.utf8ByteSize_eq_zero_iff.mp hzero

/-! ## The table -/

/-- The last row of a file with this id. -/
def lastRow (rows : List (Option CsvRow)) (id : SubscriberId) : Option CsvRow :=
  rows.reduceOption.reverse.find? fun row => row.radioId == id.asU32

theorem tryFrom_asU32 (id : SubscriberId) : SubscriberId.tryFrom id.asU32 = .ok id := by
  rw [SubscriberId.tryFrom, dif_neg id.nonzero, dif_neg (UInt32.not_lt.mpr id.range)]

theorem asU32_of_tryFrom {v : UInt32} {id : SubscriberId} (h : SubscriberId.tryFrom v = .ok id) : v = id.asU32 := by
  unfold SubscriberId.tryFrom at h
  split at h
  · cases h
  · split at h
    · cases h
    · cases h
      rfl

theorem insertRow_eq (subs : Subscribers) (row : CsvRow) (id : SubscriberId) :
    subs.insertRow (some row) id =
      if row.radioId = id.asU32 then some (row.intoSubscriber id).1 else subs id := by
  unfold Subscribers.insertRow
  dsimp only
  cases htry : SubscriberId.tryFrom row.radioId with
  | ok other =>
    have hother := asU32_of_tryFrom htry
    dsimp only
    by_cases hid : id = other
    · rw [hid, if_pos hother, Function.update_self]
    · have hne : row.radioId ≠ id.asU32 := by
        intro heq
        rw [heq, tryFrom_asU32] at htry
        exact hid (Except.ok.inj htry)
      rw [if_neg hne, Function.update_of_ne hid]
  | error e =>
    have hne : row.radioId ≠ id.asU32 := by
      intro heq
      rw [heq, tryFrom_asU32] at htry
      cases htry
    rw [if_neg hne]

/-- Of rows with one id, the table keeps the last. -/
theorem fromReader_eq (rows : List (Option CsvRow)) (id : SubscriberId) :
    Subscribers.fromReader rows id = (lastRow rows id).map fun row => (row.intoSubscriber id).1 := by
  unfold Subscribers.fromReader
  induction rows using List.reverseRecOn with
  | nil => rfl
  | append_singleton rows row ih =>
    rw [List.foldl_append, List.foldl_cons, List.foldl_nil]
    unfold lastRow at ih ⊢
    rw [List.reduceOption_append, List.reverse_append]
    cases row with
    | none => exact ih
    | some row =>
      rw [List.reduceOption_singleton, Option.toList_some, List.reverse_singleton, List.singleton_append,
        List.find?_cons, insertRow_eq]
      by_cases hid : row.radioId = id.asU32
      · rw [if_pos hid, hid, beq_self_eq_true]
        rfl
      · rw [if_neg hid, beq_eq_false_iff_ne.mpr hid]
        exact ih

/-! ## Refreshes -/

variable {σ φ : Type}

/-- The voice machine, and the table that `subscriber_refresh` swaps. -/
structure Directory (σ φ : Type) where
  table : Subscribers
  machine : Machine σ φ

inductive DirectoryEvent where
  /-- The rows of the file, or an error when it was opened. -/
  | reload (file : Option (List (Option CsvRow)))
  | turn (e : Env × PttEvent)

namespace Directory

/-- A file that cannot be loaded at the start counts as an empty one. -/
def start (file : Option (List (Option CsvRow))) (machine : Machine σ φ) : Directory σ φ :=
  ⟨file.elim .empty .fromReader, machine⟩

def step (P : Params σ φ) (d : Directory σ φ) : DirectoryEvent → Directory σ φ × List Output
  | .reload (some rows) => ({ d with table := .fromReader rows }, [])
  | .reload none => (d, [])
  | .turn e =>
    let (machine, outs) := DmrBridge.turn { P with callsignLookup := some d.table.lookup } d.machine e
    ({ d with machine }, outs)

def turns (events : List DirectoryEvent) : List (Env × PttEvent) :=
  events.filterMap fun
    | .turn e => some e
    | .reload _ => none

/-- The file that was loaded last. -/
def lastFile (file : Option (List (Option CsvRow))) (events : List DirectoryEvent) : Option (List (Option CsvRow)) :=
  events.foldl (fun file e =>
    match e with
    | .reload (some rows) => some rows
    | _ => file) file

end Directory

/-- Without the callsign and the name. -/
def Output.anonymous : Output → Output
  | .metadata (.call data) => .metadata (.call { data with call := none, name := none })
  | o => o

/-! ## What a table changes -/

section
variable (P : Params σ φ) (look : Option (SubscriberId → Option (String × String)))

theorem emitCallMetadata_lookup (pkt : Dmrd) :
    (emitCallMetadata { P with callsignLookup := look } pkt).map Output.anonymous =
      (emitCallMetadata P pkt).map Output.anonymous := by
  unfold emitCallMetadata
  cases Talkgroup.tryFrom pkt.dstId with
  | error e => rfl
  | ok tg => rfl

/-- The same machine, and the same outputs but for callsigns and names. -/
def AlikeButNames (r r' : Machine σ φ × List Output) : Prop :=
  r.1 = r'.1 ∧ r.2.map Output.anonymous = r'.2.map Output.anonymous

theorem AlikeButNames.refl (r : Machine σ φ × List Output) : AlikeButNames r r := ⟨rfl, rfl⟩

theorem onHeader_lookup (m : Machine σ φ) (env : Env) (pkt : Dmrd) :
    AlikeButNames (onHeader { P with callsignLookup := look } m env pkt) (onHeader P m env pkt) := by
  unfold onHeader
  split
  · exact .refl _
  · refine ⟨rfl, ?_⟩
    dsimp only
    rw [List.map_append, List.map_append, emitCallMetadata_lookup]

theorem boundaryOutputs_lookup (pkt : Dmrd) (e : VoiceEntry) :
    (boundaryOutputs { P with callsignLookup := look } pkt e).map Output.anonymous =
      (boundaryOutputs P pkt e).map Output.anonymous := by
  unfold boundaryOutputs
  rw [List.map_append, List.map_append, List.map_append, List.map_append]
  by_cases hstart : e.callStart = true
  · rw [if_pos hstart, if_pos hstart, List.map_cons, List.map_cons, emitCallMetadata_lookup]
  · rw [if_neg hstart, if_neg hstart]

theorem decode_lookup : @decode σ φ { P with callsignLookup := look } = decode P := rfl

theorem fillGap_lookup (env : Env) (streamId : UInt32) (n : Nat) (c : Codec σ φ) (i : Nat) :
    fillGap { P with callsignLookup := look } env streamId n c i = fillGap P env streamId n c i := by
  induction n generalizing c i with
  | zero => rfl
  | succ n ih => simp only [fillGap, decode_lookup, ih]

theorem decodeFrames_lookup (env : Env) (streamId : UInt32) (frames : List AmbeFrame) (c : Codec σ φ) (i : Nat) :
    decodeFrames { P with callsignLookup := look } env streamId frames c i =
      decodeFrames P env streamId frames c i := by
  induction frames generalizing c i with
  | nil => rfl
  | cons frame frames ih => simp only [decodeFrames, decode_lookup, ih]

theorem voiceAudio_lookup (c : Codec σ φ) (env : Env) (pkt : Dmrd) (gap : UInt8) :
    voiceAudio { P with callsignLookup := look } c env pkt gap = voiceAudio P c env pkt gap := by
  simp only [voiceAudio, fillGap_lookup, decodeFrames_lookup]
  rfl

theorem onVoice_lookup (m : Machine σ φ) (env : Env) (pkt : Dmrd) :
    AlikeButNames (onVoice { P with callsignLookup := look } m env pkt) (onVoice P m env pkt) := by
  simp only [onVoice, voiceAudio_lookup]
  refine ⟨rfl, ?_⟩
  dsimp only
  rw [List.map_append, List.map_append, boundaryOutputs_lookup]
  rfl

theorem turn_lookup (m : Machine σ φ) (e : Env × PttEvent) :
    AlikeButNames (turn { P with callsignLookup := look } m e) (turn P m e) := by
  obtain ⟨env, e⟩ := e
  cases e with
  | control event => exact .refl _
  | timeout => exact ⟨rfl, rfl⟩
  | audio frame => exact ⟨rfl, rfl⟩
  | shutdown => exact ⟨rfl, rfl⟩
  | dmrd pkt =>
    show AlikeButNames (onDmrd { P with callsignLookup := look } m env pkt) (onDmrd P m env pkt)
    unfold onDmrd
    dsimp only
    split
    · exact .refl _
    split
    · exact .refl _
    split
    · exact .refl _
    cases pkt.frameType with
    | voice => exact onVoice_lookup P look m env pkt
    | voiceSync => exact onVoice_lookup P look m env pkt
    | dataSync =>
      dsimp only
      split
      · exact onHeader_lookup P look m env pkt
      split
      · exact ⟨rfl, rfl⟩
      · exact .refl _

end

/-- Loading the file again in the middle of calls, with whatever result, changes callsigns and names and nothing else:
the machine goes on as one that has no table. -/
theorem refresh_undisturbed (P : Params σ φ) (d : Directory σ φ) (events : List DirectoryEvent) :
    (exec (Directory.step P) d events).1.machine = (exec (turn P) d.machine (Directory.turns events)).1 ∧
      (exec (Directory.step P) d events).2.map Output.anonymous =
        (exec (turn P) d.machine (Directory.turns events)).2.map Output.anonymous := by
  induction events generalizing d with
  | nil => exact ⟨rfl, rfl⟩
  | cons e events ih =>
    cases e with
    | reload file =>
      cases file with
      | none => exact ih d
      | some rows => exact ih { d with table := .fromReader rows }
    | turn e =>
      obtain ⟨hmachine, houts⟩ := turn_lookup P (some d.table.lookup) d.machine e
      obtain ⟨hend, hrest⟩ := ih (Directory.step P d (.turn e)).1
      have hnext : (Directory.step P d (.turn e)).1.machine = (turn P d.machine e).1 := hmachine
      rw [hnext] at hend hrest
      refine ⟨hend, ?_⟩
      show ((Directory.step P d (.turn e)).2 ++ (exec (Directory.step P) _ events).2).map Output.anonymous =
        ((turn P d.machine e).2 ++ (exec (turn P) _ (Directory.turns events)).2).map Output.anonymous
      rw [List.map_append, List.map_append, hrest]
      exact congrArg (· ++ _) houts

/-! ## Whose name is shown -/

/-- What a metadata field shows of a text: nothing of an empty one, else all of it that fits. -/
def Shown (text : String) : Option String → Prop
  | none => text = ""
  | some shown => shown ≠ "" ∧ Capped text shown

/-- A talker is called what the row of a file says, if there is a file and it has one. -/
def NamedBy (file : Option (List (Option CsvRow))) (data : CallMetadata) : Prop :=
  match file.bind (lastRow · data.dmrId) with
  | none => data.call = none ∧ data.name = none
  | some row => Shown row.callsign data.call ∧ Shown row.firstName data.name

theorem shown_capField (text : String) : Shown text (nonEmpty (capField text).1) := by
  have hcapped := (capField_spec text).1
  unfold nonEmpty
  split
  · rename_i hempty
    exact hcapped.eq_empty_iff.mp (String.isEmpty_iff.mp hempty)
  · rename_i hsome
    exact ⟨fun hempty => hsome (String.isEmpty_iff.mpr hempty), hcapped⟩

theorem call_mem_metaEvents {P : Params σ φ} {m : Machine σ φ} {e : Env × PttEvent} {data : CallMetadata}
    (h : .call data ∈ metaEvents (turn P m e).2) : ∃ pkt, .call data ∈ metaEvents (emitCallMetadata P pkt) := by
  obtain ⟨env, ev⟩ := e
  have hmove := handle_rxMove P m env ev
  have hmem : .call data ∈ metaEvents (handle P m env ev).2 := h
  generalize (handle P m env ev).1.state = s', (handle P m env ev).2 = outs at hmove hmem
  generalize m.state = s at hmove
  cases hmove with
  | send _ _ houts =>
    rw [metaEvents_nil fun o ho => metaEventOf_dir (houts o ho)] at hmem
    cases hmem
  | @header pkt =>
    rw [metaEvents_append] at hmem
    rcases List.mem_append.mp hmem with hmem | hmem
    · exact ⟨pkt, hmem⟩
    · cases hmem
  | @voice pkt _ frames _ _ _ _ hframes =>
    rw [metaEvents_append, metaEvents_nil fun o ho => metaEventOf_voice (hframes o ho), List.append_nil,
      metaEvents_boundaryOutputs] at hmem
    split at hmem
    · exact ⟨pkt, hmem⟩
    · cases hmem
  | quiet => cases hmem
  | clobber => cases hmem
  | hangExpired => cases hmem
  | hangShutdown => cases hmem
  | terminator => simp [metaEvents, metaEventOf, rxCallEnd] at hmem
  | streamTimeout => simp [metaEvents, metaEventOf, rxCallEnd] at hmem
  | shutdown => simp [metaEvents, metaEventOf, rxCallEnd] at hmem

theorem lookup_fromFile (file : Option (List (Option CsvRow))) (id : SubscriberId) :
    Subscribers.lookup (file.elim .empty .fromReader) id =
      (file.bind (lastRow · id)).map fun row => ((capField row.callsign).1, (capField row.firstName).1) := by
  unfold Subscribers.lookup
  cases file with
  | none => rfl
  | some rows =>
    rw [Option.elim_some, fromReader_eq, Option.map_map]
    rfl

theorem table_eq (P : Params σ φ) (file : Option (List (Option CsvRow))) (m : Machine σ φ)
    (events : List DirectoryEvent) :
    (exec (Directory.step P) (.start file m) events).1.table =
      (Directory.lastFile file events).elim .empty .fromReader := by
  induction events generalizing file m with
  | nil => rfl
  | cons e events ih =>
    cases e with
    | reload reloaded =>
      cases reloaded with
      | none => exact ih file m
      | some rows => exact ih (some rows) m
    | turn e => exact ih file (Directory.step P (.start file m) (.turn e)).1.machine

/-- At any point of any run, a call is named by the file that was loaded last, whatever loads failed since. -/
theorem named_by_lastFile (P : Params σ φ) (file : Option (List (Option CsvRow))) (m : Machine σ φ)
    (past : List DirectoryEvent) (e : Env × PttEvent) :
    ∀ data, .call data ∈ metaEvents (Directory.step P (exec (Directory.step P) (.start file m) past).1 (.turn e)).2 →
      NamedBy (Directory.lastFile file past) data := by
  intro data hdata
  obtain ⟨pkt, hmem⟩ := call_mem_metaEvents hdata
  rw [table_eq] at hmem
  generalize Directory.lastFile file past = last at hmem ⊢
  unfold emitCallMetadata at hmem
  cases htg : Talkgroup.tryFrom pkt.dstId with
  | error e =>
    rw [htg] at hmem
    cases hmem
  | ok tg =>
    rw [htg, Option.bind_some, lookup_fromFile] at hmem
    unfold NamedBy
    cases hrow : last.bind (lastRow · pkt.srcId) with
    | none =>
      rw [hrow] at hmem
      cases List.mem_singleton.mp hmem
      rw [hrow]
      exact ⟨rfl, rfl⟩
    | some row =>
      rw [hrow] at hmem
      cases List.mem_singleton.mp hmem
      rw [hrow]
      exact ⟨shown_capField row.callsign, shown_capField row.firstName⟩

def sampleRow : CsvRow :=
  { radioId := 3151238, callsign := "W6XYZ", firstName := "", lastName := "Doe", city := "", state := "California"
    country := "United States" }

/-- A reload fails, and a header comes in. -/
theorem named_by_lastFile_sample :
    ∃ data, .call data ∈ metaEvents (Directory.step sampleParams
        (exec (Directory.step sampleParams) (.start (some [none, some sampleRow]) (newMachine () none))
          [.reload none]).1
        (.turn (sampleEnv 0 0, .dmrd (samplePacket .dataSync 1 7)))).2 ∧
      NamedBy (some [none, some sampleRow]) data := by
  refine ⟨{ dmrId := sampleSrc, tg := ⟨91, by decide, by decide⟩, slot := .one, cc := ⟨1, by decide⟩
            call := nonEmpty (capField "W6XYZ").1, name := nonEmpty (capField "").1 }, ?_, ?_⟩
  · exact .head _
  · exact named_by_lastFile sampleParams (some [none, some sampleRow]) (newMachine () none) [.reload none]
      (sampleEnv 0 0, .dmrd (samplePacket .dataSync 1 7)) _ (.head _)

end DmrBridge
