import Mathlib.Data.List.MinMax
import Sentri.LibModule.MessageHandler
import Sentri.Text.Chunks

/-!
# Substitution of variables

The variables of a text are those that one scan from left to right reads, each with
the longest key that fits.  The function `replaceVars` goes through the text once
for every key, and may find the key where the scan reads something else.
-/

namespace Sentri.LibModule.Module

open Sentri.Text

/-! ## One scan -/

/-- What the scan reads: a character or a variable. -/
inductive Piece where
  | literal (c : Char)
  | var (key value : Str)

/-- The variable with the longest key that the text begins with. -/
def longest (varsMap : StrMap) (text : Str) : Option (Str × Str) :=
  (varsMap.toList.filter fun entry => !entry.1.isEmpty && entry.1.isPrefixOf text).argmax
    fun entry => entry.1.length

/-- Read a text.  The first argument counts the characters of the current key that
are still to be dropped. -/
def readFrom (varsMap : StrMap) : Nat → Str → List Piece
  | _, [] => []
  | skip + 1, _ :: rest => readFrom varsMap skip rest
  | 0, c :: rest =>
      if c = '%' then
        match longest varsMap rest with
        | some (key, value) => .var key value :: readFrom varsMap key.length rest
        | none => .literal c :: readFrom varsMap 0 rest
      else
        .literal c :: readFrom varsMap 0 rest

def read (varsMap : StrMap) (text : Str) : List Piece :=
  readFrom varsMap 0 text

/-- What a piece is replaced by. -/
def Piece.replaced : Piece → Str
  | .literal c => [c]
  | .var _ value => value

/-- Replace all variables of a text in one scan. -/
def substitute (varsMap : StrMap) (text : Str) : Str :=
  (read varsMap text).flatMap Piece.replaced

/-! ## One pass for every key -/

/-- A piece after the passes for some keys. -/
def Piece.after (keys : List Str) : Piece → Str
  | .literal c => [c]
  | .var key value => if key ∈ keys then value else '%' :: key

/-- What the pass for a key is to see in a piece. -/
def Piece.chunk (keys : List Str) (key : Str) : Piece → Chunk
  | .literal c => .other [c]
  | .var other value =>
      if other = key then .hit else .other (Piece.after keys (.var other value))

/-- The text after the passes for some keys. -/
def stage (keys : List Str) (pieces : List Piece) : Str :=
  pieces.flatMap (Piece.after keys)

/-- The pieces as the pass for a key is to see them, after the passes for some keys. -/
def chunks (keys : List Str) (key : Str) (pieces : List Piece) : List Chunk :=
  pieces.map (Piece.chunk keys key)

variable {varsMap : StrMap}

theorem longest_spec {text key value : Str} (found : longest varsMap text = some (key, value)) :
    varsMap[key]? = some value ∧ key ≠ [] ∧ key <+: text := by
  have member := List.argmax_mem found
  simp only [List.mem_filter, Bool.and_eq_true, Bool.not_eq_true',
    List.isEmpty_eq_false_iff, List.isPrefixOf_iff_prefix,
    Std.ExtTreeMap.mem_toList_iff_getElem?_eq_some] at member
  exact member

/-- The scan loses nothing. -/
theorem stage_readFrom (skip : Nat) (text : Str) :
    stage [] (readFrom varsMap skip text) = text.drop skip := by
  induction text generalizing skip with
  | nil => cases skip <;> rfl
  | cons c rest ih =>
      cases skip with
      | succ skip => exact ih skip
      | zero =>
          have literal : stage [] (.literal c :: readFrom varsMap 0 rest) = c :: rest :=
            congrArg (c :: ·) (ih 0)
          simp only [readFrom]
          split
          · rename_i percent
            split
            · rename_i key value found
              rcases longest_spec found with ⟨_, _, tail, rfl⟩
              have later := ih key.length
              rw [List.drop_left] at later
              change '%' :: key ++ stage [] (readFrom varsMap key.length (key ++ tail)) = _
              rw [later, percent]
              rfl
            · exact literal
          · exact literal

/-- The variables that the scan reads are those of the map. -/
theorem readFrom_var {skip : Nat} {text key value : Str}
    (member : .var key value ∈ readFrom varsMap skip text) :
    varsMap[key]? = some value ∧ key ≠ [] := by
  induction text generalizing skip with
  | nil => cases skip <;> cases member
  | cons c rest ih =>
      cases skip with
      | succ skip => exact ih member
      | zero =>
          have literal : .var key value ∈ Piece.literal c :: readFrom varsMap 0 rest →
              varsMap[key]? = some value ∧ key ≠ [] := by
            intro member
            rcases List.mem_cons.mp member with same | later
            · cases same
            · exact ih later
          simp only [readFrom] at member
          split at member
          · split at member
            · rename_i other otherValue found
              rcases List.mem_cons.mp member with same | later
              · cases same
                exact ⟨(longest_spec found).1, (longest_spec found).2.1⟩
              · exact ih later
            · exact literal member
          · exact literal member

/-! ## The passes -/

variable {keys : List Str} {key value : Str} {pieces : List Piece}

/-- Before its pass, the variables of a key are still as they were. -/
theorem fill_chunks_key (new : key ∉ keys) :
    fill ('%' :: key) (chunks keys key pieces) = stage keys pieces := by
  simp only [fill, chunks, stage, List.flatMap_map]
  apply List.flatMap_congr
  intro piece _
  cases piece with
  | literal c => rfl
  | var other value =>
      simp only [Piece.chunk]
      split
      · rename_i same
        simp [Chunk.shown, Piece.after, same, new]
      · rfl

/-- After its pass, they have got their value. -/
theorem fill_chunks_value (mine : ∀ other, .var key other ∈ pieces → other = value) :
    fill value (chunks keys key pieces) = stage (keys ++ [key]) pieces := by
  simp only [fill, chunks, stage, List.flatMap_map]
  apply List.flatMap_congr
  intro piece member
  cases piece with
  | literal c => rfl
  | var other otherValue =>
      simp only [Piece.chunk]
      split
      · rename_i same
        subst same
        simp [Chunk.shown, Piece.after, mine otherValue member]
      · rename_i different
        simp [Chunk.shown, Piece.after, different]

/-- A pass has a key that had no pass before. -/
theorem key_notMem {before after : List (Str × Str)}
    (split : varsMap.toList = before ++ (key, value) :: after) : key ∉ before.map Prod.fst := by
  have distinct := varsMap.distinct_keys_toList
  rw [split] at distinct
  intro member
  rcases List.mem_map.mp member with ⟨entry, old, rfl⟩
  have different := (List.pairwise_append.mp distinct).2.2 entry old _ List.mem_cons_self
  exact different (Std.LawfulEqCmp.compare_eq_iff_eq.mpr rfl)

/-- The entry of a pass is in the map. -/
theorem getElem?_of_split {before after : List (Str × Str)}
    (split : varsMap.toList = before ++ (key, value) :: after) : varsMap[key]? = some value := by
  rw [← Std.ExtTreeMap.mem_toList_iff_getElem?_eq_some, split]
  simp

/-- In every pass the key is found only where the scan reads it. -/
def Unmixed (varsMap : StrMap) (text : Str) : Prop :=
  ∀ before key value after, varsMap.toList = before ++ (key, value) :: after →
    stray ('%' :: key) (chunks (before.map Prod.fst) key (read varsMap text)) = false

/-- Every pass replaces the variables that the scan reads and nothing else, whatever
it inserts. -/
def Separate (varsMap : StrMap) (text : Str) : Prop :=
  ∀ before key value after, varsMap.toList = before ++ (key, value) :: after →
    ∀ inserted,
      replaceAll (stage (before.map Prod.fst) (read varsMap text)) ('%' :: key) inserted =
        fill inserted (chunks (before.map Prod.fst) key (read varsMap text))

theorem separate_iff (varsMap : StrMap) (text : Str) :
    Separate varsMap text ↔ Unmixed varsMap text := by
  have pass : ∀ before key value after, varsMap.toList = before ++ (key, value) :: after →
      ((∀ inserted,
        replaceAll (stage (before.map Prod.fst) (read varsMap text)) ('%' :: key) inserted =
          fill inserted (chunks (before.map Prod.fst) key (read varsMap text))) ↔
        stray ('%' :: key) (chunks (before.map Prod.fst) key (read varsMap text)) = false) := by
    intro before key value after split
    rw [← fill_chunks_key (key_notMem split)]
    exact replaceAll_fill_iff '%' key _
  constructor
  · intro separate before key value after split
    exact (pass before key value after split).mp (separate before key value after split)
  · intro unmixed before key value after split
    exact (pass before key value after split).mpr (unmixed before key value after split)

/-- Separate passes bring the text from one stage to the next. -/
theorem foldl_passes {text : Str} (separate : Separate varsMap text)
    (before left : List (Str × Str)) (split : varsMap.toList = before ++ left) :
    left.foldl (fun result entry => replaceAll result ('%' :: entry.1) entry.2)
        (stage (before.map Prod.fst) (read varsMap text)) =
      stage (varsMap.toList.map Prod.fst) (read varsMap text) := by
  induction left generalizing before with
  | nil => rw [split, List.append_nil, List.foldl_nil]
  | cons entry left ih =>
      rcases entry with ⟨key, value⟩
      have mine : ∀ other, .var key other ∈ read varsMap text → other = value := by
        intro other member
        have found := (readFrom_var member).1
        rw [getElem?_of_split split] at found
        exact (Option.some.inj found).symm
      have next := ih (before ++ [(key, value)]) (by simpa using split)
      rw [List.map_append] at next
      rw [List.foldl_cons, separate before key value left split value, fill_chunks_value mine]
      exact next

/-- After all passes there are only values. -/
theorem stage_all (text : Str) :
    stage (varsMap.toList.map Prod.fst) (read varsMap text) = substitute varsMap text := by
  apply List.flatMap_congr
  intro piece member
  cases piece with
  | literal c => rfl
  | var key value =>
      have found := Std.ExtTreeMap.mem_toList_iff_getElem?_eq_some.mpr (readFrom_var member).1
      have listed : key ∈ varsMap.toList.map Prod.fst := List.mem_map_of_mem found
      simp only [Piece.after, Piece.replaced, listed, if_true]

theorem replaceVars_of_separate {text : Str} (separate : Separate varsMap text) :
    replaceVars text varsMap = substitute varsMap text := by
  have passed := foldl_passes separate [] varsMap.toList rfl
  have whole : stage [] (read varsMap text) = text := stage_readFrom 0 text
  rw [List.map_nil, whole, stage_all] at passed
  exact passed

/-- Where a key is found only where the scan reads it, the result is that of the scan. -/
theorem replaceVars_of_unmixed {text : Str} (unmixed : Unmixed varsMap text) :
    replaceVars text varsMap = substitute varsMap text :=
  replaceVars_of_separate ((separate_iff varsMap text).mpr unmixed)

/-- The passes are one scan: the result is that of the scan, and no pass touches what
another has inserted.  This is so exactly if a key is found only where the scan
reads it.  That the passes are separate is the same condition by `separate_iff` already;
what the loop adds is the result, by `replaceVars_of_unmixed`. -/
theorem single_scan_iff (varsMap : StrMap) (text : Str) :
    (replaceVars text varsMap = substitute varsMap text ∧ Separate varsMap text) ↔
      Unmixed varsMap text := by
  rw [← separate_iff]
  constructor
  · rintro ⟨_, separate⟩
    exact separate
  · intro separate
    exact ⟨replaceVars_of_unmixed ((separate_iff varsMap text).mp separate), separate⟩

/-- Keys and values without `%`, no key that is the beginning of another, and a text
whose every `%` belongs to a variable: then the passes are one scan. -/
theorem unmixed_of_plain {text : Str}
    (plain : ∀ key value : Str, varsMap[key]? = some value → '%' ∉ key ∧ '%' ∉ value)
    (prefixFree : ∀ key other : Str, key ∈ varsMap → other ∈ varsMap → key <+: other →
      key = other)
    (noPercent : ∀ c, .literal c ∈ read varsMap text → c ≠ '%') : Unmixed varsMap text := by
  intro before key value after split
  have keyFound := getElem?_of_split split
  apply stray_eq_false
  intro chunk member following
  rcases List.mem_map.mp member with ⟨piece, inText, seen⟩
  cases piece with
  | literal c =>
      cases seen
      exact startsIn_of_notMem fun percent => noPercent c inText
        (List.mem_singleton.mp percent).symm
  | var other otherValue =>
      have otherFound := (readFrom_var inText).1
      rcases plain other otherValue otherFound with ⟨plainKey, plainValue⟩
      simp only [Piece.chunk] at seen
      split at seen
      · cases seen
      · rename_i different
        cases seen
        simp only [Piece.after]
        split
        · exact startsIn_of_notMem plainValue
        · have noMatch : ('%' :: key).isPrefixOf ('%' :: (other ++ following)) = false := by
            rw [Bool.eq_false_iff]
            intro found
            have keyPrefix : key <+: other ++ following := by
              rw [List.isPrefixOf_iff_prefix] at found
              exact (List.cons_prefix_cons.mp found).2
            have keyIn : key ∈ varsMap := by
              rw [Std.ExtTreeMap.mem_iff_isSome_getElem?, keyFound]
              rfl
            have otherIn : other ∈ varsMap := by
              rw [Std.ExtTreeMap.mem_iff_isSome_getElem?, otherFound]
              rfl
            have otherPrefix : other <+: other ++ following := List.prefix_append other following
            rcases List.prefix_or_prefix_of_prefix keyPrefix otherPrefix with shorter | longer
            · exact different (prefixFree key other keyIn otherIn shorter).symm
            · exact different (prefixFree other key otherIn keyIn longer)
          rw [startsIn, noMatch, startsIn_of_notMem plainKey, Bool.false_or]

/-- A value with a key in it is replaced once more. -/
theorem value_replaced :
    ¬ ∀ text vars : Str, replaceVars text (parseVars vars) = substitute (parseVars vars) text := by
  intro always
  have equal := always "%a".toList "a=%b,b=x".toList
  have different : replaceVars "%a".toList (parseVars "a=%b,b=x".toList) ≠
      substitute (parseVars "a=%b,b=x".toList) "%a".toList := by
    decide +kernel
  exact different equal

end Sentri.LibModule.Module
