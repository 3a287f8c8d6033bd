import Sentri.Text.Basic

/-!
# Texts in chunks

A text is put together from chunks, and some of them are the string that is searched
for.  Replacing all matches of this string replaces these chunks and nothing else
exactly if no match starts in one of the others.
-/

namespace Sentri.Text

/-- A part of a text: the string that is searched for, or another text. -/
inductive Chunk where
  | hit
  | other (text : Str)

def Chunk.shown (hit : Str) : Chunk → Str
  | .hit => hit
  | .other text => text

/-- The text of the chunks, with a string for the hits. -/
def fill (hit : Str) (chunks : List Chunk) : Str :=
  chunks.flatMap (Chunk.shown hit)

/-- Does a match start in a text that something follows? -/
def startsIn (search following : Str) : Str → Bool
  | [] => false
  | c :: text =>
      search.isPrefixOf (c :: (text ++ following)) || startsIn search following text

/-- Does a match start in a chunk that is no hit? -/
def stray (search : Str) : List Chunk → Bool
  | [] => false
  | .hit :: rest => stray search rest
  | .other text :: rest => startsIn search (fill search rest) text || stray search rest

variable {search replacement : Str}

@[simp]
theorem fill_cons (hit : Str) (chunk : Chunk) (chunks : List Chunk) :
    fill hit (chunk :: chunks) = chunk.shown hit ++ fill hit chunks := by
  simp [fill]

theorem replaceFrom_skip (text following : Str) :
    replaceFrom search replacement text.length (text ++ following) =
      replaceFrom search replacement 0 following := by
  induction text with
  | nil => rfl
  | cons c text ih => exact ih

/-- A match at the beginning is replaced. -/
theorem replaceFrom_hit (nonempty : search ≠ []) (following : Str) :
    replaceFrom search replacement 0 (search ++ following) =
      replacement ++ replaceFrom search replacement 0 following := by
  cases search with
  | nil => exact absurd rfl nonempty
  | cons c tail =>
      have found : (c :: tail).isPrefixOf (c :: (tail ++ following)) = true := by
        rw [List.isPrefixOf_iff_prefix]
        exact List.prefix_append (c :: tail) following
      have skipped := @replaceFrom_skip (c :: tail) replacement tail following
      simp only [List.cons_append, replaceFrom, found, if_true, List.length_cons,
        Nat.add_sub_cancel, skipped]

/-- A text in which no match starts is left as it is. -/
theorem replaceFrom_other {text following : Str}
    (mismatch : startsIn search following text = false) :
    replaceFrom search replacement 0 (text ++ following) =
      text ++ replaceFrom search replacement 0 following := by
  induction text with
  | nil => rfl
  | cons c text ih =>
      simp only [startsIn, Bool.or_eq_false_iff] at mismatch
      simp only [List.cons_append, replaceFrom, mismatch.1, Bool.false_eq_true, if_false, ih
        mismatch.2]

/-- A match does not start where its first character is missing. -/
theorem startsIn_of_notMem {c : Char} {tail following text : Str} (missing : c ∉ text) :
    startsIn (c :: tail) following text = false := by
  induction text with
  | nil => rfl
  | cons first text ih =>
      simp only [List.mem_cons, not_or] at missing
      rcases missing with ⟨different, later⟩
      have noMatch : (c :: tail).isPrefixOf (first :: (text ++ following)) = false := by
        simp [List.isPrefixOf, different]
      rw [startsIn, noMatch, ih later, Bool.false_or]

/-- Chunks in which no match starts, whatever follows them. -/
theorem stray_eq_false {chunks : List Chunk} (free : ∀ text, .other text ∈ chunks →
    ∀ following, startsIn search following text = false) : stray search chunks = false := by
  induction chunks with
  | nil => rfl
  | cons chunk chunks ih =>
      have later := ih fun text member => free text (List.mem_cons_of_mem _ member)
      cases chunk with
      | hit => exact later
      | other text => rw [stray, free text List.mem_cons_self, later, Bool.false_or]

/-- Without a stray match, replacing replaces the hits. -/
theorem replaceAll_fill (nonempty : search ≠ []) {chunks : List Chunk}
    (noStray : stray search chunks = false) (replacement : Str) :
    replaceAll (fill search chunks) search replacement = fill replacement chunks := by
  unfold replaceAll
  induction chunks with
  | nil => rfl
  | cons chunk chunks ih =>
      cases chunk with
      | hit =>
          rw [fill_cons, fill_cons, Chunk.shown, replaceFrom_hit nonempty, ih noStray]
          rfl
      | other text =>
          simp only [stray, Bool.or_eq_false_iff] at noStray
          rw [fill_cons, fill_cons, Chunk.shown, replaceFrom_other noStray.1, ih noStray.2]
          rfl

/-- A match that starts in a text is replaced by something that does not begin as
the text goes on. -/
theorem replaceFrom_startsIn {c d : Char} {tail text following left : Str} (different : d ≠ c)
    (starts : startsIn (c :: tail) following text = true) :
    replaceFrom (c :: tail) [d] 0 (text ++ following) ≠ text ++ left := by
  induction text with
  | nil => cases starts
  | cons first text ih =>
      cases found : (c :: tail).isPrefixOf (first :: (text ++ following)) with
      | true =>
          have same : c = first := by
            rw [List.isPrefixOf_iff_prefix] at found
            exact (List.cons_prefix_cons.mp found).1
          intro equal
          simp only [List.cons_append, replaceFrom, found, if_true] at equal
          exact different ((List.cons.inj equal).1.trans same.symm)
      | false =>
          have later : startsIn (c :: tail) following text = true := by
            simpa only [startsIn, found, Bool.false_or] using starts
          intro equal
          simp only [List.cons_append, replaceFrom, found, Bool.false_eq_true, if_false] at equal
          exact ih later (List.cons.inj equal).2

theorem replaceAll_stray {c d : Char} {tail : Str} (different : d ≠ c) {chunks : List Chunk}
    (strays : stray (c :: tail) chunks = true) :
    replaceAll (fill (c :: tail) chunks) (c :: tail) [d] ≠ fill [d] chunks := by
  unfold replaceAll
  induction chunks with
  | nil => cases strays
  | cons chunk chunks ih =>
      rw [fill_cons, fill_cons]
      cases chunk with
      | hit =>
          rw [Chunk.shown, replaceFrom_hit (List.cons_ne_nil c tail)]
          intro equal
          exact ih strays (List.append_cancel_left equal)
      | other text =>
          cases starts : startsIn (c :: tail) (fill (c :: tail) chunks) text with
          | true => exact replaceFrom_startsIn different starts
          | false =>
              have later : stray (c :: tail) chunks = true := by
                simpa only [stray, starts, Bool.false_or] using strays
              rw [Chunk.shown, replaceFrom_other starts]
              intro equal
              exact ih later (List.append_cancel_left equal)

/-- Replacing replaces the hits and nothing else, whatever the replacement is,
exactly if there is no stray match. -/
theorem replaceAll_fill_iff (c : Char) (tail : Str) (chunks : List Chunk) :
    (∀ replacement, replaceAll (fill (c :: tail) chunks) (c :: tail) replacement =
      fill replacement chunks) ↔ stray (c :: tail) chunks = false := by
  constructor
  · intro correct
    rw [Bool.eq_false_iff]
    intro strays
    by_cases letter : c = 'a'
    · exact replaceAll_stray (show 'b' ≠ c by simp [letter]) strays (correct ['b'])
    · exact replaceAll_stray (Ne.symm letter) strays (correct ['a'])
  · exact fun noStray => replaceAll_fill (List.cons_ne_nil c tail) noStray

end Sentri.Text
