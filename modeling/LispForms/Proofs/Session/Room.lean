import LispForms.Proofs.Session.Entries

/-!
# Room — the loop where a channel takes no more

Records are written as long as there is room for them (`Room.Fits`).  The first that does not fit
fills its channel to the last byte and ends the loop; so both channels hold what the lines before it
have written, one of them with the beginning of that record behind.
-/

namespace LispForms.Session

open Text (encode)

def Channel.other : Channel → Channel
  | .output => .errors
  | .errors => .output

def Outcome.on (outcome : Outcome) : Channel → Bytes
  | .output => outcome.output
  | .errors => outcome.errors

/-- Each channel has room for what the records put on it. -/
def Room.Fits (room : Room) (records : List Record) : Prop :=
  ∀ channel, ∀ limit ∈ room.of channel, (written channel records).length ≤ limit

def Room.left (room : Room) (records : List Record) : Room :=
  records.foldl (fun room record => room.spend record.channel record.bytes.length) room

variable {room : Room} {channel : Channel} {records : List Record} {record : Record}
  {fault : Option Fault}

/-! ## 1. Outcomes and room -/

theorem Outcome.eq_of_on {outcome outcome' : Outcome}
    (hon : ∀ channel, outcome.on channel = outcome'.on channel)
    (hfault : outcome.fault = outcome'.fault) : outcome = outcome' := by
  have houtput : outcome.output = outcome'.output := hon .output
  have herrors : outcome.errors = outcome'.errors := hon .errors
  cases outcome
  cases outcome'
  simp_all

theorem Outcome.on_after (outcome : Outcome) (target channel : Channel) (bytes : Bytes) :
    (outcome.after target bytes).on channel
      = (if target = channel then bytes else []) ++ outcome.on channel := by
  cases target <;> cases channel <;> rfl

theorem Outcome.fault_after (outcome : Outcome) (target : Channel) (bytes : Bytes) :
    (outcome.after target bytes).fault = outcome.fault := by
  cases target <;> rfl

theorem written_cons_eq (channel : Channel) (record : Record) (records : List Record) :
    written channel (record :: records)
      = (if record.channel = channel then record.bytes else []) ++ written channel records := by
  rw [written, List.filter_cons]
  split <;> simp_all [written]

theorem Room.of_spend (room : Room) (target channel : Channel) (count : Nat) :
    (room.spend target count).of channel
      = (room.of channel).map (· - if target = channel then count else 0) := by
  cases target <;> cases channel <;> simp [Room.spend, Room.of]

theorem Room.of_left (room : Room) (records : List Record) (channel : Channel) :
    (room.left records).of channel
      = (room.of channel).map (· - (written channel records).length) := by
  induction records generalizing room with
  | nil => simp [Room.left]
  | cons record records ih =>
    show ((room.spend record.channel record.bytes.length).left records).of channel = _
    rw [ih, Room.of_spend, written_cons_eq, Option.map_map]
    congr 1
    funext limit
    show limit - _ - _ = limit - _
    rw [List.length_append, Nat.sub_sub, apply_ite List.length]
    rfl

theorem Room.allows_iff (room : Room) (channel : Channel) (count : Nat) :
    room.allows channel count = true ↔ ∀ limit ∈ room.of channel, count ≤ limit := by
  rw [Room.allows]
  cases room.of channel <;> simp

theorem Room.fits_nil (room : Room) : room.Fits [] := fun _ _ _ => Nat.zero_le _

theorem Room.fits_append_iff (room : Room) (first later : List Record) :
    room.Fits (first ++ later) ↔ room.Fits first ∧ (room.left first).Fits later := by
  constructor
  · intro h
    refine ⟨fun channel limit hlimit => ?_, fun channel limit hlimit => ?_⟩
    · have hle := h channel limit hlimit
      rw [written_append, List.length_append] at hle
      omega
    · rw [Room.of_left] at hlimit
      obtain ⟨whole, hwhole, rfl⟩ := Option.map_eq_some_iff.mp hlimit
      have hle := h channel whole hwhole
      rw [written_append, List.length_append] at hle
      omega
  · rintro ⟨hfirst, hlater⟩ channel limit hlimit
    have hle := hfirst channel limit hlimit
    have hrest : limit - (written channel first).length ∈ (room.left first).of channel := by
      rw [Room.of_left]
      exact Option.map_eq_some_iff.mpr ⟨limit, hlimit, rfl⟩
    have hmore := hlater channel _ hrest
    rw [written_append, List.length_append]
    omega

theorem Room.fits_singleton_iff (room : Room) (record : Record) :
    room.Fits [record] ↔ room.allows record.channel record.bytes.length = true := by
  rw [Room.allows_iff]
  constructor
  · intro h limit hlimit
    have hle := h record.channel limit hlimit
    rwa [written_cons_eq, if_pos rfl, written_nil, List.append_nil] at hle
  · intro h channel limit hlimit
    rw [written_cons_eq, written_nil, List.append_nil]
    split
    · next heq => exact h limit (heq ▸ hlimit)
    · exact Nat.zero_le _

theorem on_loop_unlimited (input : Bytes) (channel : Channel) :
    (loop .unlimited input).on channel
      = written channel (Transcript.ofLines (lines input)).records := by
  rw [loop_unlimited]
  cases channel <;> rfl

/-! ## 2. Delivery -/

/-- Records for which there is room are written, and the delivery goes on with the room that they
leave. -/
theorem deliver_append (fault : Option Fault) {first : List Record} (h : room.Fits first)
    (later : List Record) :
    (∀ channel, (deliver fault room (first ++ later)).on channel
      = written channel first ++ (deliver fault (room.left first) later).on channel) ∧
    (deliver fault room (first ++ later)).fault
      = (deliver fault (room.left first) later).fault := by
  induction first generalizing room with
  | nil => exact ⟨fun _ => rfl, rfl⟩
  | cons record first ih =>
    rw [← List.singleton_append, Room.fits_append_iff, Room.fits_singleton_iff] at h
    -- The first record is written, and the others have the room that it leaves.
    obtain ⟨hallows, hfits⟩ := h
    obtain ⟨hon, hfault⟩ := ih hfits
    rw [List.cons_append, deliver, if_pos hallows]
    refine ⟨fun channel => ?_, ?_⟩
    · rw [Outcome.on_after, written_cons_eq, List.append_assoc]
      exact congrArg _ (hon channel)
    · rw [Outcome.fault_after]
      exact hfault

theorem deliver_of_fits (h : room.Fits records) :
    deliver fault room records = ⟨written .output records, written .errors records, fault⟩ := by
  obtain ⟨hon, hfault⟩ := deliver_append fault h []
  rw [List.append_nil] at hon hfault
  refine Outcome.eq_of_on (fun channel => ?_) hfault
  rw [hon]
  cases channel <;> exact List.append_nil _

/-- A record for which there is no room is written as far as there is, and nothing after it. -/
theorem deliver_of_not_allows {first : List Record} (hfits : room.Fits first)
    (hnot : (room.left first).allows record.channel record.bytes.length = false)
    (later : List Record) :
    (∀ channel, (deliver fault room (first ++ record :: later)).on channel
      = written channel first ++
          if record.channel = channel then (room.left first).cut channel record.bytes else []) ∧
    (deliver fault room (first ++ record :: later)).fault = some .sinkFull := by
  obtain ⟨hon, hfault⟩ := deliver_append fault hfits (record :: later)
  rw [deliver, if_neg (Bool.eq_false_iff.mp hnot)] at hon hfault
  rw [Outcome.fault_after] at hfault
  refine ⟨fun channel => ?_, hfault⟩
  rw [hon, Outcome.on_after]
  split
  · next heq =>
    rw [heq]
    cases channel <;> rw [Outcome.on, List.append_nil]
  · cases channel <;> rfl

/-- The channel that a record has no room on is limited, and filled to its limit. -/
theorem exists_limit {first : List Record} (hfits : room.Fits first)
    (hnot : (room.left first).allows record.channel record.bytes.length = false) :
    ∃ limit, room.of record.channel = some limit ∧
      limit < (written record.channel (first ++ [record])).length ∧
      (written record.channel first
        ++ (room.left first).cut record.channel record.bytes).length = limit := by
  have hleft := room.of_left first record.channel
  cases hlimit : room.of record.channel with
  | none =>
    rw [hlimit, Option.map_none] at hleft
    rw [Room.allows, hleft] at hnot
    cases hnot
  | some limit =>
    rw [hlimit, Option.map_some] at hleft
    rw [Room.allows, hleft] at hnot
    -- What is left of the limit is less than the record, and all of it is used.
    have hshort := of_decide_eq_false hnot
    have hle := hfits record.channel limit hlimit
    refine ⟨limit, rfl, ?_, ?_⟩
    · rw [written_append, written_cons_eq, if_pos rfl, written_nil, List.append_nil,
        List.length_append]
      omega
    · rw [Room.cut, hleft, List.length_append, List.length_take]
      omega

/-! ## 3. The line that does not fit -/

/-- There is room for what the lines leave. -/
def Room.FitsLines (room : Room) (ls : List Bytes) : Prop :=
  room.Fits (Transcript.ofLines ls).records

/-- The line leaves a record, and the lines before it leave no room for that. -/
structure Room.StopsAt (room : Room) (first : List Bytes) (line : Bytes) (record : Record) :
    Prop where
  fits : room.FitsLines first
  fault : (Transcript.ofLines first).fault = none
  transcript : Transcript.ofLines [line] = ⟨[record], none⟩
  full : (room.left (Transcript.ofLines first).records).allows record.channel record.bytes.length
    = false

variable {first later : List Bytes} {line input : Bytes}

/-- By induction on the lines that are still to come. -/
theorem exists_first_not_fits {ls : List Bytes} (h : ¬ room.FitsLines ls) :
    ∃ first line later, ls = first ++ line :: later ∧ room.FitsLines first ∧
      ¬ room.FitsLines (first ++ [line]) := by
  suffices hmid : ∀ (later before : List Bytes), room.FitsLines before →
      ¬ room.FitsLines (before ++ later) → ∃ first line rest,
        before ++ later = first ++ line :: rest ∧ room.FitsLines first ∧
          ¬ room.FitsLines (first ++ [line]) from hmid ls [] room.fits_nil h
  intro later
  induction later with
  | nil =>
    intro before hbefore hnot
    rw [List.append_nil] at hnot
    exact absurd hbefore hnot
  | cons line later ih =>
    intro before hbefore hnot
    by_cases hline : room.FitsLines (before ++ [line])
    · rw [List.append_cons] at hnot ⊢
      exact ih _ hline hnot
    · exact ⟨before, line, later, rfl, hbefore, hline⟩

theorem ofLines_singleton (line : Bytes) :
    Transcript.ofLines [line] = ⟨[], some .notUtf8⟩ ∨ Transcript.ofLines [line] = ⟨[], none⟩ ∨
      ∃ record, Transcript.ofLines [line] = ⟨[record], none⟩ := by
  rw [Transcript.ofLines]
  cases Text.decode? line with
  | none => exact .inl rfl
  | some text =>
    cases hrecord : Record.ofLine? text with
    | none => exact .inr (.inl (by simp [hrecord, Transcript.ofLines]))
    | some record => exact .inr (.inr ⟨record, by simp [hrecord, Transcript.ofLines]⟩)

theorem exists_stopsAt {ls : List Bytes} (h : ¬ room.FitsLines ls) :
    ∃ first line later record, ls = first ++ line :: later ∧ room.StopsAt first line record := by
  obtain ⟨first, line, later, hls, hfits, hnot⟩ := exists_first_not_fits h
  have hfault : (Transcript.ofLines first).fault = none :=
    Decidable.byContradiction fun hfault => hnot (by
      rwa [Room.FitsLines, ofLines_append_of_fault hfault])
  rw [Room.FitsLines, ofLines_append hfault, Room.fits_append_iff] at hnot
  have hline : ¬ (room.left (Transcript.ofLines first).records).Fits
      (Transcript.ofLines [line]).records := fun h => hnot ⟨hfits, h⟩
  -- A line that leaves no record fits.
  rcases ofLines_singleton line with hsingle | hsingle | ⟨record, hsingle⟩
  · rw [hsingle] at hline
    exact absurd (Room.fits_nil _) hline
  · rw [hsingle] at hline
    exact absurd (Room.fits_nil _) hline
  · rw [hsingle, Room.fits_singleton_iff] at hline
    exact ⟨first, line, later, record, hls, hfits, hfault, hsingle, Bool.eq_false_iff.mpr hline⟩

namespace Room.StopsAt

theorem records_eq (h : room.StopsAt first line record) (later : List Bytes) :
    (Transcript.ofLines (first ++ line :: later)).records
      = (Transcript.ofLines first).records ++ record :: (Transcript.ofLines later).records := by
  have hline : (Transcript.ofLines [line]).fault = none := by rw [h.transcript]
  rw [ofLines_append h.fault, ← List.singleton_append, ofLines_append hline, h.transcript]
  rfl

/-- What is written when the loop ends at the line; nothing after the line matters. -/
theorem loop_eq (h : room.StopsAt first line record)
    (hlines : lines input = first ++ line :: later) :
    (∀ channel, (loop room input).on channel
      = written channel (Transcript.ofLines first).records ++
          if record.channel = channel then
            (room.left (Transcript.ofLines first).records).cut channel record.bytes
          else []) ∧
    (loop room input).fault = some .sinkFull := by
  rw [loop, hlines, h.records_eq]
  exact deliver_of_not_allows h.fits h.full _

theorem loop_unlimited_on (h : room.StopsAt first line record)
    (hlines : lines input = first ++ line :: later) (channel : Channel) :
    (loop .unlimited input).on channel
      = written channel (Transcript.ofLines first).records
        ++ written channel (record :: (Transcript.ofLines later).records) := by
  rw [← written_append, ← h.records_eq, ← hlines, on_loop_unlimited]

theorem prefix_unlimited (h : room.StopsAt first line record)
    (hlines : lines input = first ++ line :: later) (channel : Channel) :
    (loop room input).on channel <+: (loop .unlimited input).on channel := by
  rw [(h.loop_eq hlines).1, h.loop_unlimited_on hlines, List.prefix_append_right_inj,
    written_cons_eq]
  split
  · refine List.IsPrefix.trans ?_ (List.prefix_append _ _)
    rw [Room.cut]
    split
    · exact List.prefix_rfl
    · exact List.take_prefix _ _
  · exact List.nil_prefix

theorem exists_limit (h : room.StopsAt first line record)
    (hlines : lines input = first ++ line :: later) :
    ∃ limit, room.of record.channel = some limit ∧
      ((loop room input).on record.channel).length = limit ∧
      limit < ((loop .unlimited input).on record.channel).length := by
  obtain ⟨limit, hlimit, hlt, hlength⟩ := Session.exists_limit h.fits h.full
  refine ⟨limit, hlimit, ?_, ?_⟩
  · rw [(h.loop_eq hlines).1, if_pos rfl, hlength]
  · rw [h.loop_unlimited_on hlines, written_cons_eq, if_pos rfl]
    rw [written_append, written_cons_eq, if_pos rfl, written_nil, List.append_nil] at hlt
    simp only [List.length_append] at hlt ⊢
    omega

end Room.StopsAt

theorem loop_of_fits (h : room.FitsLines (lines input)) :
    loop room input = loop .unlimited input := by
  rw [loop_unlimited]
  exact deliver_of_fits h

theorem fitsLines_iff (room : Room) (input : Bytes) :
    room.FitsLines (lines input) ↔ ∀ channel, ∀ limit ∈ room.of channel,
      ((loop .unlimited input).on channel).length ≤ limit := by
  simp only [on_loop_unlimited]
  rfl

theorem fault_loop_unlimited_ne (input : Bytes) :
    (loop .unlimited input).fault ≠ some .sinkFull := by
  rw [loop_unlimited]
  rcases fault_ofLines (lines input) with ⟨hfault, -⟩ | ⟨hfault, -⟩ <;> simp [hfault]

/-! ## 4. Loops with limits -/

theorem not_fits_of_sinkFull (h : (loop room input).fault = some .sinkFull) :
    ¬ room.FitsLines (lines input) := by
  intro hfits
  rw [loop_of_fits hfits] at h
  exact fault_loop_unlimited_ne input h

theorem sinkFull_of_exceeded {limit : Nat} (hlimit : room.of channel = some limit)
    (hlt : limit < ((loop .unlimited input).on channel).length) :
    (loop room input).fault = some .sinkFull := by
  have hnot : ¬ room.FitsLines (lines input) := fun hfits =>
    Nat.not_le.mpr hlt ((fitsLines_iff room input).mp hfits channel limit hlimit)
  obtain ⟨first, line, later, record, hlines, hstops⟩ := exists_stopsAt hnot
  exact (hstops.loop_eq hlines).2

theorem on_loop_prefix_unlimited (room : Room) (input : Bytes) (channel : Channel) :
    (loop room input).on channel <+: (loop .unlimited input).on channel := by
  by_cases hfits : room.FitsLines (lines input)
  · have hsame := loop_of_fits hfits
    exact hsame ▸ List.prefix_rfl
  · obtain ⟨first, line, later, record, hlines, hstops⟩ := exists_stopsAt hfits
    exact hstops.prefix_unlimited hlines channel

theorem sinkFull_iff (room : Room) (input : Bytes) :
    (loop room input).fault = some .sinkFull ↔
      ∃ channel limit, room.of channel = some limit ∧
        limit < ((loop .unlimited input).on channel).length := by
  constructor
  · intro h
    obtain ⟨first, line, later, record, hlines, hstops⟩ := exists_stopsAt (not_fits_of_sinkFull h)
    obtain ⟨limit, hlimit, -, hlt⟩ := hstops.exists_limit hlines
    exact ⟨record.channel, limit, hlimit, hlt⟩
  · rintro ⟨channel, limit, hlimit, hlt⟩
    exact sinkFull_of_exceeded hlimit hlt

theorem loop_first_lines (hstops : room.StopsAt first line record)
    (hlines : lines input = first ++ line :: later) :
    loop room first.flatten = loop .unlimited first.flatten ∧
      (loop .unlimited first.flatten).fault = none ∧
      ∀ channel, (loop .unlimited first.flatten).on channel
        = written channel (Transcript.ofLines first).records := by
  have hfirst : lines first.flatten = first := lines_flatten ⟨_, hlines.symm⟩
  refine ⟨loop_of_fits (hfirst.symm ▸ hstops.fits), ?_, fun channel => ?_⟩
  · rw [loop_unlimited, hfirst]
    exact hstops.fault
  · rw [on_loop_unlimited, hfirst]

/-- With any limits the loop writes the beginning of what it writes without.  It ends for want of
room exactly if that is longer than a limit.  Then there is a first line that does not fit.  The
channel that its record goes to is filled to the last byte; the other one holds what the lines
before it, which are read as without limits, have put there; and nothing after the line matters.
Else the limits make no difference. -/
theorem loop_within_room (room : Room) (input : Bytes) :
    (loop room input).output <+: (loop .unlimited input).output ∧
    (loop room input).errors <+: (loop .unlimited input).errors ∧
    ((loop room input).fault = some .sinkFull ↔
      (∃ n, room.output = some n ∧ n < (loop .unlimited input).output.length) ∨
        ∃ m, room.errors = some m ∧ m < (loop .unlimited input).errors.length) ∧
    ((loop room input).fault = some .sinkFull →
      ∃ first line later channel limit, lines input = first ++ line :: later ∧
        room.of channel = some limit ∧ ((loop room input).on channel).length = limit ∧
        (loop room input).on channel.other = (loop .unlimited first.flatten).on channel.other ∧
        loop room first.flatten = loop .unlimited first.flatten ∧
        (loop .unlimited first.flatten).fault = none ∧
        ∀ input', first ++ [line] <+: lines input' → loop room input' = loop room input) ∧
    ((loop room input).fault ≠ some .sinkFull → loop room input = loop .unlimited input) := by
  refine ⟨on_loop_prefix_unlimited room input .output, on_loop_prefix_unlimited room input .errors,
    ?_, fun hfull => ?_, fun hfull => ?_⟩
  · rw [sinkFull_iff]
    constructor
    · rintro ⟨channel, limit, hlimit, hlt⟩
      cases channel with
      | output => exact .inl ⟨limit, hlimit, hlt⟩
      | errors => exact .inr ⟨limit, hlimit, hlt⟩
    · rintro (⟨n, hlimit, hlt⟩ | ⟨m, hlimit, hlt⟩)
      · exact ⟨.output, n, hlimit, hlt⟩
      · exact ⟨.errors, m, hlimit, hlt⟩
  · obtain ⟨first, line, later, record, hlines, hstops⟩ :=
      exists_stopsAt (not_fits_of_sinkFull hfull)
    obtain ⟨limit, hlimit, hlength, -⟩ := hstops.exists_limit hlines
    obtain ⟨hsame, hfault, hwritten⟩ := loop_first_lines hstops hlines
    refine ⟨first, line, later, record.channel, limit, hlines, hlimit, hlength, ?_, hsame, hfault,
      fun input' hprefix => ?_⟩
    · -- The record that does not fit leaves the other channel alone.
      have hne : record.channel ≠ record.channel.other := by cases record.channel <;> decide
      rw [(hstops.loop_eq hlines).1, if_neg hne, List.append_nil, hwritten]
    · -- Both inputs stop at the same record, and so come to the same.
      obtain ⟨later', hlines'⟩ := hprefix
      rw [List.append_assoc, List.singleton_append] at hlines'
      refine Outcome.eq_of_on (fun channel => ?_) ?_
      · rw [(hstops.loop_eq hlines).1, (hstops.loop_eq hlines'.symm).1]
      · rw [(hstops.loop_eq hlines).2, (hstops.loop_eq hlines'.symm).2]
  · refine loop_of_fits (Classical.byContradiction fun hnot => hfull ?_)
    obtain ⟨first, line, later, record, hlines, hstops⟩ := exists_stopsAt hnot
    exact (hstops.loop_eq hlines).2

/-- With room for five bytes on the output the second list is cut off, and the symbol behind it is
lost; the message of the line between is whole.  Where the limits are not reached, a line that is
not UTF-8 ends the loop as it does without them. -/
theorem loop_within_room_cut_list :
    (loop ⟨some 5, none⟩ (encode "a\n(x\n(b c)\nd\n".toList)).fault = some .sinkFull ∧
      (∃ first line later channel limit,
        lines (encode "a\n(x\n(b c)\nd\n".toList) = first ++ line :: later ∧
        Room.of ⟨some 5, none⟩ channel = some limit ∧
        ((loop ⟨some 5, none⟩ (encode "a\n(x\n(b c)\nd\n".toList)).on channel).length = limit) ∧
      (loop ⟨some 2, some 0⟩ (encode "a\n".toList ++ [255])).fault ≠ some .sinkFull ∧
      loop ⟨some 2, some 0⟩ (encode "a\n".toList ++ [255])
        = loop .unlimited (encode "a\n".toList ++ [255]) := by
  have hlimited := loop_within_room ⟨some 5, none⟩ (encode "a\n(x\n(b c)\nd\n".toList)
  have hentries : entries (encode "a\n(x\n(b c)\nd\n".toList)
      = ["a\n".toList, "(x\n".toList, "(b c)\n".toList, "d\n".toList] := by rfl
  have hshown : (loop .unlimited (encode "a\n(x\n(b c)\nd\n".toList)).output
      = encode "a\n(b c)\nd\n".toList := by
    rw [(loop_eq_entries _).1, hentries]
    rfl
  have hfull : (loop ⟨some 5, none⟩ (encode "a\n(x\n(b c)\nd\n".toList)).fault
      = some .sinkFull := by
    refine hlimited.2.2.1.mpr (.inl ⟨5, rfl, ?_⟩)
    rw [hshown]
    decide
  have hreached : (loop ⟨some 2, some 0⟩ (encode "a\n".toList ++ [255])).fault
      ≠ some .sinkFull := by
    have htranscript : Transcript.ofLines (lines (encode "a\n".toList ++ [255]))
        = ⟨[⟨.output, ['a']⟩], some .notUtf8⟩ := by rfl
    rw [loop, htranscript]
    decide
  obtain ⟨first, line, later, channel, limit, hlines, hlimit, hlength, -⟩ := hlimited.2.2.2.1 hfull
  exact ⟨hfull, ⟨first, line, later, channel, limit, hlines, hlimit, hlength⟩, hreached,
    (loop_within_room _ _).2.2.2.2 hreached⟩

end LispForms.Session
