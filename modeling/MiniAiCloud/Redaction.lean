import Mathlib.Data.List.Dedup
import Mathlib.Data.List.Infix
import Mathlib.Data.List.Lex
import Mathlib.Data.List.MinMax
import Mathlib.Order.Nat
import Mathlib.Data.Prod.Lex
import MiniAiCloud.OrderedQuery

/-! # Redaction of a stream in chunks

    A secret may be cut by the end of a chunk, so the redactor holds back a suffix that
    could still become a secret.  A position is decided only when no longer secret can
    begin there, and then it is decided as on the whole stream (`consume_redacts`); so the
    output does not depend on the chunks. -/

namespace MiniAiCloud

open OrderedQuery List

section Stream

variable {α : Type} {secrets patterns : List (List α)} {data more s t : List α}
  {marker : List α} {final : Bool} {pieces pieces' : List (Option α)}

/-! ## One pass over a whole stream -/

/-- The leftmost-longest replacement of secrets: `some b` is a byte that is copied, `none`
    stands for a secret. -/
inductive Redacts (secrets : List (List α)) : List α → List (Option α) → Prop where
  | done : Redacts secrets [] []
  | copy {b : α} {data : List α} {pieces : List (Option α)}
      (hclear : ∀ s ∈ secrets, ¬ s <+: b :: data) (h : Redacts secrets data pieces) :
      Redacts secrets (b :: data) (some b :: pieces)
  | hide {s data : List α} {pieces : List (Option α)} (hs : s ∈ secrets)
      (hlongest : ∀ t ∈ secrets, t <+: s ++ data → t.length ≤ s.length)
      (h : Redacts secrets data pieces) : Redacts secrets (s ++ data) (none :: pieces)

/-- The bytes of the pieces. -/
def render (marker : List α) (pieces : List (Option α)) : List α :=
  pieces.flatMap (fun | some b => [b] | none => marker)

/-- A stream has one replacement. -/
theorem Redacts.unique (hne : ∀ s ∈ secrets, s ≠ []) (h : Redacts secrets data pieces) :
    Redacts secrets data pieces' → pieces' = pieces := by
  induction h generalizing pieces' with
  | done =>
    intro h'
    generalize hdata : ([] : List α) = data at h'
    cases h' with
    | done => rfl
    | copy => cases hdata
    | hide hs => exact absurd (append_eq_nil_iff.mp hdata.symm).1 (hne _ hs)
  | @copy b data _ hclear _ ih =>
    intro h'
    generalize hdata : b :: data = whole at h'
    cases h' with
    | done => cases hdata
    | copy _ h' =>
      cases hdata
      rw [ih h']
    | hide hs => exact absurd (hdata ▸ prefix_append _ _) (hclear _ hs)
  | @hide s data _ hs hlong _ ih =>
    intro h'
    generalize hdata : s ++ data = whole at h'
    cases h' with
    | done => exact absurd (append_eq_nil_iff.mp hdata).1 (hne s hs)
    | copy hclear => exact absurd (hdata ▸ prefix_append s data) (hclear s hs)
    | @hide t rest _ ht hlong' h' =>
      have hle := hlong t ht (hdata ▸ prefix_append t rest)
      have hge := hlong' s hs (hdata ▸ prefix_append s data)
      obtain ⟨rfl, rfl⟩ := append_inj hdata (le_antisymm hge hle)
      rw [ih h']

/-- Bytes copied from the front stand at the front of the stream. -/
theorem Redacts.of_copied (h : Redacts secrets data pieces) (ht : t.map some <+: pieces) :
    t <+: data := by
  induction h generalizing t with
  | done =>
    rw [prefix_nil, map_eq_nil_iff] at ht
    exact ht ▸ nil_prefix
  | copy _ _ ih =>
    cases t with
    | nil => exact nil_prefix
    | cons b rest =>
      obtain ⟨hb, hr⟩ := cons_prefix_cons.mp ht
      exact cons_prefix_cons.mpr ⟨Option.some.inj hb, ih hr⟩
  | hide =>
    cases t with
    | nil => exact nil_prefix
    | cons => cases (cons_prefix_cons.mp ht).1

/-- **NO SECRET IS COPIED.** -/
theorem Redacts.clear (hne : ∀ s ∈ secrets, s ≠ []) (h : Redacts secrets data pieces)
    (hs : s ∈ secrets) : ¬ s.map some <:+: pieces := by
  have hnil : s.map some ≠ [] := mt map_eq_nil_iff.mp (hne s hs)
  induction h with
  | done => exact fun hinfix => hnil (infix_nil.mp hinfix)
  | copy hclear h ih =>
    intro hinfix
    rcases infix_cons_iff.mp hinfix with hfront | hr
    · exact hclear s hs ((h.copy hclear).of_copied hfront)
    · exact ih hr
  | hide _ _ _ ih =>
    intro hinfix
    rcases infix_cons_iff.mp hinfix with hfront | hr
    · cases s with
      | nil => exact hnil rfl
      | cons => cases (cons_prefix_cons.mp hfront).1
    · exact ih hr

theorem Redacts.congr {secrets' : List (List α)} (heq : ∀ s, s ∈ secrets ↔ s ∈ secrets')
    (h : Redacts secrets data pieces) : Redacts secrets' data pieces := by
  induction h with
  | done => exact .done
  | copy hclear _ ih => exact ih.copy fun s hs => hclear s ((heq s).mpr hs)
  | hide hs hlong _ ih =>
    exact ih.hide ((heq _).mp hs) fun t ht => hlong t ((heq t).mpr ht)

/-! ## The loop -/

def maximumPatternBytes (patterns : List (List α)) : ℕ :=
  (patterns.map List.length).foldr max 0

theorem length_le_maximumPatternBytes (hs : s ∈ patterns) :
    s.length ≤ maximumPatternBytes patterns :=
  le_max_of_le (mem_map_of_mem (f := List.length) hs) le_rfl

/-- What is left may still become a longer secret. -/
def CouldComplete (patterns : List (List α)) (final : Bool) (data : List α) : Prop :=
  final = false ∧ data.length < maximumPatternBytes patterns
    ∧ ∃ pattern ∈ patterns, data.length < pattern.length ∧ data <+: pattern

/-- A secret that begins at a decided position ends within the bytes that are there. -/
theorem prefix_of_decided (hdec : ¬ CouldComplete patterns final data)
    (hfinal : final = true → more = []) (hs : s ∈ patterns) (h : s <+: data ++ more) :
    s <+: data := by
  cases final with
  | true =>
    rw [hfinal rfl, append_nil] at h
    exact h
  | false =>
    refine prefix_of_prefix_length_le h (prefix_append data more) (not_lt.mp ?_)
    intro hlong
    refine hdec ⟨rfl, hlong.trans_le (length_le_maximumPatternBytes hs), s, hs, hlong, ?_⟩
    exact prefix_of_prefix_length_le (prefix_append data more) h hlong.le

variable [DecidableEq α]

instance : Decidable (CouldComplete patterns final data) := inferInstanceAs (Decidable (_ ∧ _))

/-- The loop of `_consume` from one position on: the output, and what stays pending.  No
    pattern is empty, so a match takes the byte at the position and some after it. -/
def consume (patterns : List (List α)) (marker : List α) (final : Bool) :
    List α → List α × List α
  | [] => ([], [])
  | b :: rest =>
    if CouldComplete patterns final (b :: rest) then ([], b :: rest)
    else match patterns.find? (·.isPrefixOf (b :: rest)) with
      | none =>
        let result := consume patterns marker final rest
        (b :: result.1, result.2)
      | some matched =>
        let result := consume patterns marker final (rest.drop (matched.length - 1))
        (marker ++ result.1, result.2)
  termination_by data => data.length

/-- The first pattern that matches is the longest. -/
theorem length_le_of_find? (hsort : patterns.Pairwise (fun p q => q.length ≤ p.length))
    (hfind : patterns.find? (·.isPrefixOf data) = some s) (ht : t ∈ patterns)
    (hpre : t <+: data) : t.length ≤ s.length := by
  obtain ⟨_, before, behind, rfl, hbefore⟩ := find?_eq_some_iff_append.mp hfind
  rcases mem_append.mp ht with hfirst | hlater
  · have hnot := hbefore t hfirst
    rw [List.isPrefixOf_iff_prefix.mpr hpre] at hnot
    cases hnot
  · rcases mem_cons.mp hlater with rfl | hbeh
    · exact le_rfl
    · exact (pairwise_cons.mp (pairwise_append.mp hsort).2.1).1 t hbeh

/-- **THE LOOP** decides as one pass does, whatever comes after the data. -/
theorem consume_redacts (hne : ∀ s ∈ patterns, s ≠ [])
    (hsort : patterns.Pairwise (fun p q => q.length ≤ p.length))
    (hfinal : final = true → more = [])
    (h : Redacts patterns ((consume patterns marker final data).2 ++ more) pieces) :
    ∃ pieces', Redacts patterns (data ++ more) pieces' ∧
      render marker pieces' = (consume patterns marker final data).1 ++ render marker pieces := by
  fun_induction consume patterns marker final data with
  | case1 => exact ⟨pieces, h, rfl⟩
  | case2 => exact ⟨pieces, h, rfl⟩
  | case3 b rest hdec hfind result ih =>
    obtain ⟨pieces', hr, hrend⟩ := ih h
    refine ⟨some b :: pieces', hr.copy fun s hs hpre => ?_, congrArg (b :: ·) hrend⟩
    have hthere := prefix_of_decided hdec hfinal hs hpre
    exact find?_eq_none.mp hfind s hs (List.isPrefixOf_iff_prefix.mpr hthere)
  | case4 b rest hdec matched hfind result ih =>
    obtain ⟨pieces', hr, hrend⟩ := ih h
    have hmem : matched ∈ patterns := mem_of_find?_eq_some hfind
    have hpre : matched <+: b :: rest :=
      isPrefixOf_iff_prefix.mp (find?_eq_some_iff_append.mp hfind).1
    obtain ⟨c, tail, rfl⟩ := exists_cons_of_ne_nil (hne matched hmem)
    have hdata : (c :: tail) ++ rest.drop tail.length = b :: rest := prefix_iff_eq_append.mp hpre
    refine ⟨none :: pieces', ?_, ?_⟩
    · rw [← hdata, append_assoc]
      refine hr.hide hmem fun t ht hoth => ?_
      rw [← append_assoc, hdata] at hoth
      exact length_le_of_find? hsort hfind ht (prefix_of_decided hdec hfinal ht hoth)
    · show marker ++ render marker pieces' = marker ++ result.1 ++ render marker pieces
      rw [hrend, append_assoc]

/-- What stays pending may still become a secret. -/
theorem consume_pending : (consume patterns marker final data).2 = []
      ∨ CouldComplete patterns final (consume patterns marker final data).2 := by
  fun_induction consume patterns marker final data with
  | case1 => exact .inl rfl
  | case2 _ _ hcould => exact .inr hcould
  | case3 _ _ _ _ _ ih => exact ih
  | case4 _ _ _ _ _ _ ih => exact ih

end Stream

/-! ## The redactor -/

/-- `value.encode("utf-8")`. -/
def encodeUtf8 (value : String) : List UInt8 := value.toList.flatMap String.utf8EncodeChar

def redactionMarker : List UInt8 := encodeUtf8 "***REDACTED***"

structure StreamingSecretRedactor where
  patterns : List (List UInt8)
  pending : List UInt8

/-- The values as bytes, without the empty one. -/
def secretBytes (values : List String) : List (List UInt8) :=
  ((values.filter (· ≠ "")).map encodeUtf8).dedup

theorem ne_nil_of_mem_secretBytes {values : List String} {s : List UInt8}
    (hs : s ∈ secretBytes values) : s ≠ [] := by
  obtain ⟨value, hvalue, rfl⟩ := mem_map.mp (mem_dedup.mp hs)
  have hnot : value ≠ "" := of_decide_eq_true (mem_filter.mp hvalue).2
  intro hnil
  rw [encodeUtf8, flatMap_eq_nil_iff] at hnil
  obtain ⟨c, _, hlist⟩ := exists_cons_of_ne_nil (mt String.toList_eq_nil_iff.mp hnot)
  have hzero := congrArg List.length (hnil c (by rw [hlist]; exact mem_cons_self))
  rw [String.length_utf8EncodeChar] at hzero
  exact absurd hzero (Char.utf8Size_pos c).ne'

/-- The constructor: longer patterns come first. -/
def StreamingSecretRedactor.ofValues (values : List String) : StreamingSecretRedactor where
  patterns := orderBy (fun item => toLex (-(item.length : ℤ), item.map UInt8.toNat))
    (secretBytes values)
  pending := []

def StreamingSecretRedactor.feed (r : StreamingSecretRedactor) (content : List UInt8) :
    List UInt8 × StreamingSecretRedactor :=
  if r.patterns = [] then (content, r)
  else
    let result := consume r.patterns redactionMarker false (r.pending ++ content)
    (result.1, { r with pending := result.2 })

def StreamingSecretRedactor.finish (r : StreamingSecretRedactor) : List UInt8 :=
  if r.patterns = [] then [] else (consume r.patterns redactionMarker true r.pending).1

/-- The chunks are fed one after the other; the outputs are joined. -/
def StreamingSecretRedactor.feedAll (r : StreamingSecretRedactor) :
    List (List UInt8) → List UInt8 × StreamingSecretRedactor
  | [] => ([], r)
  | content :: rest =>
    let fed := r.feed content
    let others := fed.2.feedAll rest
    (fed.1 ++ others.1, others.2)

/-! ## Runs -/

section Runs

variable {r : StreamingSecretRedactor}

theorem consume_nil {α : Type} [DecidableEq α] (marker : List α) (final : Bool) (data : List α) :
    consume [] marker final data = (data, []) := by
  induction data with
  | nil => rw [consume]
  | cons b rest ih =>
    rw [consume, if_neg (by rintro ⟨-, -, _, hmem, -⟩; cases hmem)]
    simp only [find?_nil, ih]

/-- Without patterns the loop copies as well, so there is one case. -/
theorem StreamingSecretRedactor.feed_eq (hidle : r.patterns = [] → r.pending = [])
    (content : List UInt8) : r.feed content
      = ((consume r.patterns redactionMarker false (r.pending ++ content)).1, { r with
          pending := (consume r.patterns redactionMarker false (r.pending ++ content)).2 }) := by
  rw [StreamingSecretRedactor.feed]
  split_ifs with hn
  · obtain ⟨patterns, pending⟩ := r
    obtain rfl : patterns = [] := hn
    obtain rfl : pending = [] := hidle rfl
    rw [consume_nil]
    rfl
  · rfl

theorem StreamingSecretRedactor.finish_eq (hidle : r.patterns = [] → r.pending = []) :
    r.finish = (consume r.patterns redactionMarker true r.pending).1 := by
  rw [StreamingSecretRedactor.finish]
  split_ifs with hn
  · rw [hn, consume_nil, hidle hn]
  · rfl

/-- What is pending may still become a secret. -/
def StreamingSecretRedactor.Waits (r : StreamingSecretRedactor) : Prop :=
  r.pending = [] ∨ CouldComplete r.patterns false r.pending

theorem StreamingSecretRedactor.Waits.idle (h : r.Waits) (hn : r.patterns = []) :
    r.pending = [] := by
  rcases h with hempty | ⟨-, -, _, hmem, -⟩
  · exact hempty
  · rw [hn] at hmem
    cases hmem

/-- **A RUN** of feeds and a last call give the replacement of what was pending and fed. -/
theorem StreamingSecretRedactor.feedAll_redacts (hne : ∀ s ∈ r.patterns, s ≠ [])
    (hsort : r.patterns.Pairwise (fun p q => q.length ≤ p.length)) (hwaits : r.Waits)
    (chunks : List (List UInt8)) :
    (r.feedAll chunks).2.Waits ∧ (r.feedAll chunks).2.patterns = r.patterns
      ∧ ∃ pieces, Redacts r.patterns (r.pending ++ chunks.flatten) pieces
        ∧ (r.feedAll chunks).1 ++ (r.feedAll chunks).2.finish
          = render redactionMarker pieces := by
  induction chunks generalizing r with
  | nil =>
    have hpending : (consume r.patterns redactionMarker true r.pending).2 = [] :=
      consume_pending.resolve_right fun hcould => Bool.noConfusion hcould.1
    have hlast : Redacts r.patterns
        ((consume r.patterns redactionMarker true r.pending).2 ++ []) [] := by
      rw [hpending]
      exact .done
    obtain ⟨pieces, hred, hrend⟩ := consume_redacts hne hsort (fun _ => rfl) hlast
    refine ⟨hwaits, rfl, pieces, hred, ?_⟩
    rw [hrend]
    show r.finish = _ ++ []
    rw [append_nil, finish_eq hwaits.idle]
  | cons content rest ih =>
    have hfeed := feed_eq hwaits.idle content
    have hnext : (r.feed content).2.Waits := by
      rw [hfeed]
      exact consume_pending
    have heq : (r.feed content).2.patterns = r.patterns := by rw [hfeed]
    obtain ⟨hlast, hpats, pieces, hred, hrend⟩ := ih (heq ▸ hne) (heq ▸ hsort) hnext
    rw [heq, hfeed] at hred
    obtain ⟨pieces', hred', hrend'⟩ := consume_redacts hne hsort (fun h => Bool.noConfusion h) hred
    refine ⟨hlast, hpats.trans heq, pieces', ?_, ?_⟩
    · rw [flatten_cons, ← append_assoc]
      exact hred'
    · rw [hrend', ← hrend, feedAll, append_assoc, hfeed]

end Runs

/-- **STREAMING REDACTION** gives what one pass over the whole stream gives, whatever the
    chunks; no secret is copied, and less than the longest secret is held back. -/
theorem streaming_redaction_exact (values : List String) (chunks : List (List UInt8)) :
    (∃ pieces, Redacts (secretBytes values) chunks.flatten pieces
      ∧ (∀ pieces', Redacts (secretBytes values) chunks.flatten pieces' → pieces' = pieces)
      ∧ ((StreamingSecretRedactor.ofValues values).feedAll chunks).1
          ++ ((StreamingSecretRedactor.ofValues values).feedAll chunks).2.finish
        = render redactionMarker pieces
      ∧ ∀ secret ∈ secretBytes values, ¬ secret.map some <:+: pieces)
    ∧ (((StreamingSecretRedactor.ofValues values).feedAll chunks).2.pending = []
      ∨ ∃ secret ∈ secretBytes values,
        ((StreamingSecretRedactor.ofValues values).feedAll chunks).2.pending.length
          < secret.length) := by
  have heq : ∀ s, s ∈ (StreamingSecretRedactor.ofValues values).patterns
      ↔ s ∈ secretBytes values := fun _ => mem_orderBy
  have hne : ∀ s ∈ secretBytes values, s ≠ [] := fun _ => ne_nil_of_mem_secretBytes
  have hsort : (StreamingSecretRedactor.ofValues values).patterns.Pairwise
      (fun p q => q.length ≤ p.length) := by
    refine (pairwise_insertionSort _ _).imp fun {p q} hle => ?_
    have hlength : -(p.length : ℤ) ≤ -(q.length : ℤ) := Prod.Lex.monotone_fst _ _ hle
    omega
  obtain ⟨hwaits, hpats, pieces, hred, hrend⟩ :=
    StreamingSecretRedactor.feedAll_redacts (fun s hs => hne s ((heq s).mp hs)) hsort
      (.inl rfl) chunks
  have hpcs : Redacts (secretBytes values) chunks.flatten pieces := hred.congr heq
  refine ⟨⟨pieces, hpcs, fun pieces' => hpcs.unique hne, hrend,
    fun secret => hpcs.clear hne⟩, ?_⟩
  rcases hwaits with hempty | ⟨-, -, s, hs, hlong, -⟩
  · exact .inl hempty
  · rw [hpats] at hs
    exact .inr ⟨s, (heq s).mp hs, hlong⟩

end MiniAiCloud
