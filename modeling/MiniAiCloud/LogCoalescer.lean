import MiniAiCloud.Redaction
import MiniAiCloud.Schema

/-! # Coalescing the logs of a task

    The worker collects what a process writes to each stream and persists it in records:
    when a buffer is full, and at time-outs.  Every byte comes into one record, and no
    record is too long.  But a record is decoded on its own, so the text of a stream comes
    out as it was only if no record ends within a character. -/

namespace MiniAiCloud

open List

/-- `_LogCoalescer`; a persisted record is kept as the bytes it is decoded from. -/
structure LogCoalescer where
  buffers : LogStream → List UInt8 := fun _ => []
  pendingOrder : List LogStream := []
  records : List (LogStream × List UInt8) := []

inductive LogCall where
  | add (stream : LogStream) (content : List UInt8)
  | flushAll

namespace LogCoalescer

/-- `_flush_bytes`: 16 KiB, and half of the 32 KiB for both streams. -/
def flushBytes (maxRecordBytes : ℕ) : ℕ :=
  min maxRecordBytes (min (16 * 1024) (32 * 1024 / 2))

/-- `_flush`. -/
def flush (c : LogCoalescer) (stream : LogStream) : LogCoalescer :=
  if c.buffers stream = [] then c
  else
    { records := c.records ++ [(stream, c.buffers stream)]
      buffers := Function.update c.buffers stream []
      pendingOrder := c.pendingOrder.erase stream }

/-- The next part of the content goes into the buffer. -/
def extend (c : LogCoalescer) (stream : LogStream) (part : List UInt8) : LogCoalescer :=
  { c with
    pendingOrder := if c.buffers stream = [] then c.pendingOrder ++ [stream]
      else c.pendingOrder
    buffers := Function.update c.buffers stream (c.buffers stream ++ part) }

/-- The loop of `add` over what is left of the content, in so many rounds at most. -/
def addLoop (limit : ℕ) (stream : LogStream) : ℕ → List UInt8 → LogCoalescer → LogCoalescer
  | 0, _, c => c
  | rounds + 1, rest, c =>
    if rest = [] then c
    else
      let size := min (limit - (c.buffers stream).length) rest.length
      let grown := c.extend stream (rest.take size)
      addLoop limit stream rounds (rest.drop size)
        (if (grown.buffers stream).length = limit then grown.flush stream else grown)

def flushAll (c : LogCoalescer) : LogCoalescer := c.pendingOrder.foldl flush c

/-- A call; every round of `add` takes a byte or more. -/
def call (limit : ℕ) (c : LogCoalescer) : LogCall → LogCoalescer
  | .add stream content => addLoop limit stream content.length content c
  | .flushAll => c.flushAll

def recordsOf (c : LogCoalescer) (stream : LogStream) : List (List UInt8) :=
  (c.records.filter (·.1 = stream)).map Prod.snd

/-- All the bytes of a stream, persisted or not. -/
def bytesOf (c : LogCoalescer) (stream : LogStream) : List UInt8 :=
  (c.recordsOf stream).flatten ++ c.buffers stream

/-! ## What the calls keep -/

/-- The buffer of the stream may be full, the others have room. -/
structure Filled (limit : ℕ) (stream : LogStream) (c : LogCoalescer) : Prop where
  size : (c.buffers stream).length ≤ limit
  room : ∀ s, s ≠ stream → (c.buffers s).length < limit
  pending : ∀ s, c.buffers s ≠ [] → s ∈ c.pendingOrder
  records : ∀ record ∈ c.records, record.2.length ≤ limit

/-- All buffers have room. -/
structure Fits (limit : ℕ) (c : LogCoalescer) : Prop where
  filled : ∀ stream, c.Filled limit stream
  room : ∀ stream, (c.buffers stream).length < limit

variable {c : LogCoalescer} {limit : ℕ} {stream : LogStream}

theorem Filled.fits (h : c.Filled limit stream) (hlt : (c.buffers stream).length < limit) :
    c.Fits limit := by
  have hroom : ∀ s, (c.buffers s).length < limit := by
    intro s
    by_cases hs : s = stream
    · exact hs ▸ hlt
    · exact h.room s hs
  exact ⟨fun s => ⟨(hroom s).le, fun t _ => hroom t, h.pending, h.records⟩, hroom⟩

/-- A flush moves the bytes of a buffer to a record. -/
theorem Filled.flush (hpos : 0 < limit) (h : c.Filled limit stream) :
    (c.flush stream).Fits limit ∧ (∀ s, (c.flush stream).bytesOf s = c.bytesOf s)
      ∧ ∀ s, s = stream ∨ c.buffers s = [] → (c.flush stream).buffers s = [] := by
  rw [LogCoalescer.flush]
  by_cases hempty : c.buffers stream = []
  · rw [if_pos hempty]
    refine ⟨h.fits ?_, fun _ => rfl, ?_⟩
    · simpa [hempty] using hpos
    · rintro s (rfl | hs)
      · exact hempty
      · exact hs
  rw [if_neg hempty]
  refine ⟨(⟨?_, ?_, ?_, ?_⟩ : Filled limit stream _).fits ?_, ?_, ?_⟩
  · simp
  · intro s hs
    simpa [hs] using h.room s hs
  · intro s hpend
    by_cases hs : s = stream
    · simp [hs] at hpend
    · exact (mem_erase_of_ne hs).mpr (h.pending s (by simpa [hs] using hpend))
  · intro record hmem
    rcases mem_append.mp hmem with hold | hnew
    · exact h.records record hold
    · rw [mem_singleton.mp hnew]
      exact h.size
  · simpa using hpos
  · intro s
    by_cases hs : s = stream
    · simp [bytesOf, recordsOf, hs]
    · simp [bytesOf, recordsOf, hs, Ne.symm hs]
  · intro s hs
    by_cases heq : s = stream
    · simp [heq]
    · simpa [heq] using hs

theorem Fits.extend (h : c.Fits limit) (stream : LogStream) (part : List UInt8)
    (hlen : (c.buffers stream).length + part.length ≤ limit) :
    (c.extend stream part).Filled limit stream
      ∧ ∀ s, (c.extend stream part).bytesOf s
        = c.bytesOf s ++ if s = stream then part else [] := by
  refine ⟨⟨?_, ?_, ?_, (h.filled stream).records⟩, ?_⟩
  · simpa [LogCoalescer.extend] using hlen
  · intro s hs
    simpa [LogCoalescer.extend, hs] using h.room s
  · intro s hpend
    have hold := (h.filled stream).pending s
    by_cases hempty : c.buffers stream = [] <;> by_cases hs : s = stream <;>
      simp_all [LogCoalescer.extend]
  · intro s
    by_cases hs : s = stream <;> simp [bytesOf, recordsOf, LogCoalescer.extend, hs]

/-- **ADDING** ends, and the content has come after what was there. -/
theorem Fits.addLoop {rounds : ℕ} {rest : List UInt8} (h : c.Fits limit)
    (hrounds : rest.length ≤ rounds) :
    (addLoop limit stream rounds rest c).Fits limit
      ∧ ∀ s, (addLoop limit stream rounds rest c).bytesOf s
        = c.bytesOf s ++ if s = stream then rest else [] := by
  induction rounds generalizing rest c with
  | zero =>
    obtain rfl := length_eq_zero_iff.mp (Nat.le_zero.mp hrounds)
    exact ⟨h, by simp [LogCoalescer.addLoop]⟩
  | succ rounds ih =>
    rw [LogCoalescer.addLoop]
    by_cases hrest : rest = []
    · subst hrest
      exact ⟨h, by simp⟩
    rw [if_neg hrest]
    -- the round takes at least one byte, since the buffer has room
    have hpos := length_pos_iff.mpr hrest
    have hroom := h.room stream
    generalize hsize : min (limit - (c.buffers stream).length) rest.length = size
    obtain ⟨hfilled, hbytes⟩ := h.extend stream (rest.take size) (by rw [length_take]; omega)
    have hmore : (rest.drop size).length ≤ rounds := by
      rw [length_drop]
      omega
    have hsplit : ∀ s, c.bytesOf s ++ (if s = stream then rest else [])
        = (c.extend stream (rest.take size)).bytesOf s
          ++ if s = stream then rest.drop size else [] := by
      intro s
      rw [hbytes]
      split_ifs
      · rw [append_assoc, take_append_drop]
      · simp
    simp only [hsplit]
    split_ifs with hfull
    · obtain ⟨hfits, hkept, _⟩ := hfilled.flush (by omega)
      obtain ⟨hend, hall⟩ := ih hfits hmore
      exact ⟨hend, fun s => by rw [hall, hkept]⟩
    · exact ih (hfilled.fits (lt_of_le_of_ne hfilled.size hfull)) hmore

theorem Fits.flushes (streams : List LogStream) (h : c.Fits limit) :
    (streams.foldl LogCoalescer.flush c).Fits limit
      ∧ (∀ s, (streams.foldl LogCoalescer.flush c).bytesOf s = c.bytesOf s)
      ∧ ∀ s, s ∈ streams ∨ c.buffers s = [] →
        (streams.foldl LogCoalescer.flush c).buffers s = [] := by
  induction streams generalizing c with
  | nil => exact ⟨h, fun _ => rfl, fun _ hs => hs.resolve_left not_mem_nil⟩
  | cons stream _ ih =>
    have hpos := Nat.zero_lt_of_lt (h.room stream)
    obtain ⟨hfits, hkept, hgone⟩ := (h.filled stream).flush hpos
    obtain ⟨hend, hall, hgone'⟩ := ih hfits
    refine ⟨hend, fun s => (hall s).trans (hkept s), fun s hs => hgone' s ?_⟩
    rcases hs with hs | hs
    · exact (mem_cons.mp hs).symm.imp id fun heq => hgone s (.inl heq)
    · exact .inr (hgone s (.inr hs))

/-- A final flush leaves nothing behind. -/
theorem Fits.flushAll (h : c.Fits limit) :
    c.flushAll.Fits limit ∧ ∀ s, (c.flushAll.recordsOf s).flatten = c.bytesOf s := by
  obtain ⟨hfits, hkept, hgone⟩ := h.flushes c.pendingOrder
  refine ⟨hfits, fun s => (?_ : _ = c.flushAll.bytesOf s).trans (hkept s)⟩
  have hempty : c.flushAll.buffers s = [] := by
    refine hgone s ?_
    by_cases hs : c.buffers s = []
    · exact .inr hs
    · exact .inl ((h.filled s).pending s hs)
  rw [bytesOf, hempty, append_nil]

/-- What a call brings of a stream. -/
def added (stream : LogStream) : LogCall → List UInt8
  | .add s content => if stream = s then content else []
  | .flushAll => []

theorem Fits.calls (calls : List LogCall) (h : c.Fits limit) :
    (calls.foldl (call limit) c).Fits limit
      ∧ ∀ s, (calls.foldl (call limit) c).bytesOf s = c.bytesOf s ++ calls.flatMap (added s) := by
  induction calls generalizing c with
  | nil => exact ⟨h, by simp⟩
  | cons next _ ih =>
    have hnext : (c.call limit next).Fits limit
        ∧ ∀ s, (c.call limit next).bytesOf s = c.bytesOf s ++ added s next := by
      cases next with
      | add => exact h.addLoop le_rfl
      | flushAll =>
        obtain ⟨hfits, hkept, _⟩ := h.flushes c.pendingOrder
        exact ⟨hfits, fun s => (hkept s).trans (append_nil _).symm⟩
    obtain ⟨hfits, hbytes⟩ := hnext
    obtain ⟨hend, hall⟩ := ih hfits
    refine ⟨hend, fun s => ?_⟩
    rw [foldl_cons, hall, hbytes, flatMap_cons, append_assoc]

/-- The calls on a new coalescer, and a final flush. -/
def run (maxRecordBytes : ℕ) (calls : List LogCall) : LogCoalescer :=
  (calls.foldl (call (flushBytes maxRecordBytes)) {}).flushAll

end LogCoalescer

/-! ## The text -/

/-- `bytes.decode("utf-8", "replace")`: text is decoded as it is, and U+FFFD stands where
    something is not text. -/
structure Utf8Decoder where
  decode : List UInt8 → List Char
  exact : ∀ text, decode (encodeUtf8 text) = text.toList
  replaces : ∀ bytes : List UInt8, ¬ bytes.toByteArray.IsValidUTF8 → '�' ∈ decode bytes

/-- The records of a stream, as they are persisted one after the other. -/
def LogCoalescer.contents (c : LogCoalescer) (decoder : Utf8Decoder) (stream : LogStream) :
    List Char :=
  (c.recordsOf stream).flatMap decoder.decode

/-- Parts that are text are decoded to the text they make up. -/
theorem Utf8Decoder.flatMap_decode (decoder : Utf8Decoder) {parts : List (List UInt8)}
    (h : ∀ bytes ∈ parts, bytes.toByteArray.IsValidUTF8) :
    ∃ text, parts.flatten = encodeUtf8 text ∧ parts.flatMap decoder.decode = text.toList := by
  induction parts with
  | nil => exact ⟨"", rfl, rfl⟩
  | cons bytes rest ih =>
    obtain ⟨chars, hchars⟩ := h bytes mem_cons_self
    obtain ⟨text, hbytes, htext⟩ := ih fun b hb => h b (mem_cons_of_mem _ hb)
    have hpart : bytes = encodeUtf8 (String.ofList chars) := by
      rw [encodeUtf8, String.toList_ofList]
      exact toByteArray_inj.mp hchars
    refine ⟨String.ofList chars ++ text, ?_, ?_⟩
    · rw [flatten_cons, hbytes, hpart]
      simp only [encodeUtf8, String.toList_append, flatMap_append]
    · rw [flatMap_cons, hpart, decoder.exact, htext, String.toList_append]

/-- **NO TEXT IS LOST** where no record is cut within a character, and only there, unless
    the text has replacement characters of its own; no record is longer than allowed. -/
theorem coalescer_keeps_text_iff (decoder : Utf8Decoder) {maxRecordBytes : ℕ}
    (hmax : 1 ≤ maxRecordBytes) (calls : List LogCall) :
    let c := LogCoalescer.run maxRecordBytes calls
    (∀ record ∈ c.records, record.2.length ≤ maxRecordBytes)
    ∧ ∀ stream text, calls.flatMap (LogCoalescer.added stream) = encodeUtf8 text →
      ((∀ bytes ∈ c.recordsOf stream, bytes.toByteArray.IsValidUTF8) →
        c.contents decoder stream = text.toList)
      ∧ ('�' ∉ text.toList → c.contents decoder stream = text.toList →
        ∀ bytes ∈ c.recordsOf stream, bytes.toByteArray.IsValidUTF8) := by
  have hpos : 0 < LogCoalescer.flushBytes maxRecordBytes := lt_min hmax (by decide)
  have hnew : LogCoalescer.Fits (LogCoalescer.flushBytes maxRecordBytes) {} :=
    ⟨fun _ => ⟨hpos.le, fun _ _ => hpos, fun _ h => absurd rfl h, fun _ h => nomatch h⟩,
      fun _ => hpos⟩
  obtain ⟨hfits, hbytes⟩ := hnew.calls calls
  obtain ⟨hend, hall⟩ := hfits.flushAll
  refine ⟨fun record hmem => ?_, fun stream text htext => ⟨fun hwhole => ?_, ?_⟩⟩
  · exact ((hend.filled record.1).records record hmem).trans (min_le_left _ _)
  · obtain ⟨found, hfound, hchars⟩ := decoder.flatMap_decode hwhole
    have hsame := congrArg decoder.decode (hfound.symm.trans ((hall stream).trans
      ((hbytes stream).trans htext)))
    rw [decoder.exact, decoder.exact] at hsame
    exact hchars.trans hsame
  · intro hclean hkept bytes hmem
    by_contra hcut
    exact hclean (hkept ▸ mem_flatMap.mpr ⟨bytes, hmem, decoder.replaces bytes hcut⟩)

/-! ### One character of two bytes -/

/-- A decoder that replaces what is not text as a whole. -/
def wholeDecoder : Utf8Decoder where
  decode bytes := ((String.fromUTF8? bytes.toByteArray).map String.toList).getD ['�']
  exact text := by
    have hbytes : (encodeUtf8 text).toByteArray = text.toByteArray := String.utf8Encode_toList
    rw [hbytes, String.fromUTF8?, dif_pos text.isValidUTF8]
    rfl
  replaces bytes h := by
    rw [String.fromUTF8?, dif_neg h]
    exact mem_singleton_self _

def accented : List LogCall := [.add .stdout (encodeUtf8 "é")]

theorem coalescer_keeps_text_iff_two_bytes :
    (LogCoalescer.run 2 accented).contents wholeDecoder .stdout = "é".toList := by
  have hrecords : (LogCoalescer.run 2 accented).recordsOf .stdout = [encodeUtf8 "é"] := by
    decide +kernel
  refine ((coalescer_keeps_text_iff wholeDecoder (by decide) accented).2 .stdout "é"
    (append_nil _)).1 fun bytes hmem => ⟨['é'], ?_⟩
  rw [hrecords, mem_singleton] at hmem
  rw [hmem]
  rfl

/-- The character in two chunks, with a time-out between them. -/
def halves : List LogCall := [.add .stdout [0xC3], .flushAll, .add .stdout [0xA9]]

/-- Whatever the decoder puts for the two halves, the character is lost. -/
theorem coalescer_cuts_character :
    halves.flatMap (LogCoalescer.added .stdout) = encodeUtf8 "é"
      ∧ ∀ decoder, (LogCoalescer.run 1024 halves).contents decoder .stdout ≠ "é".toList := by
  have hrecs : (LogCoalescer.run 1024 halves).recordsOf .stdout = [[0xC3], [0xA9]] := by
    decide +kernel
  refine ⟨by decide +kernel, fun decoder h => ?_⟩
  have hcut : '�' ∈ decoder.decode [0xC3] := decoder.replaces _ (by decide +kernel)
  rw [LogCoalescer.contents, hrecs] at h
  exact absurd (h ▸ mem_append_left _ hcut : '�' ∈ "é".toList) (by decide)

end MiniAiCloud
