import MacroConstants.Proofs.CommandLine.Effective
import Mathlib.Data.List.TakeWhile

/-!
# Words that read back

A command line is shown as its words with spaces between them, and nothing is quoted.  It is read
back as the same words exactly if no byte in them means anything to the reader.  One half is a run
through the reader.  For the other half the bytes are counted, with one for the end of each word:
joined words have just as many as there are bytes in the text and its end, and the reader never
gives back more than that.  It gives back less for each quote, for each backslash but one at the
very end, and for each separator that ends no word.  So a text that is read back has none of them,
whatever they might do together.

* `Words.Plain` : a word without bytes that mean something.
* `Words.weight`, `Words.weight_scan_le` : the bytes of words with their ends, and how many there
  can be.
* `Words.plain_of_weight_scan` : if there are as many as there can be, all words are plain.
* `Words.Wordless`, `Words.splitWords_eq_nil_iff` : the texts that have no word.
* `splitWords_joinWords_iff` : **a shown command line is read back exactly if its words are
  plain.**
-/

namespace MacroConstants

namespace Words

variable {m : Mode} {q : Option UInt8} {b : UInt8} {w word text rest : Bytes}
  {words words' : List Bytes}

/-- A byte that means something where no quote is open. -/
def isSpecial (b : UInt8) : Bool := b == ascii '\\' || isQuote b || isSeparator b

/-- A word without bytes that mean something, and no empty one. -/
def Plain (word : Bytes) : Prop := word ≠ [] ∧
  ∀ b ∈ word, b ∉ [ascii ' ', ascii '\t', ascii '\r', ascii '\n', ascii '"', ascii '\'', ascii '\\']

instance : Decidable (Plain word) :=
  @instDecidableAnd _ _ inferInstance (List.decidableBAll _ word)

theorem isSpecial_eq_false_iff :
    isSpecial b = false ↔
      b ∉ [ascii ' ', ascii '\t', ascii '\r', ascii '\n', ascii '"', ascii '\'', ascii '\\'] := by
  simp only [isSpecial, isQuote, isSeparator, Bool.or_eq_false_iff, beq_eq_false_iff_ne,
    List.mem_cons, List.not_mem_nil, or_false, not_or, ne_eq]
  tauto

theorem isSeparator_eq_true_iff :
    isSeparator b = true ↔ b ∈ [ascii ' ', ascii '\t', ascii '\r', ascii '\n'] := by
  simp [isSeparator, or_assoc]

/-! ### Steps of the reader -/

theorem scan_backslash (word rest : Bytes) :
    scan (.plain none) word (ascii '\\' :: rest) = scan (.escaped none) word rest := by
  rw [scan, if_pos rfl]

theorem scan_quote (h : isQuote b = true) :
    scan (.plain none) word (b :: rest) = scan (.plain (some b)) word rest := by
  have hb : b ≠ ascii '\\' := by
    rintro rfl
    exact absurd h (by decide)
  rw [scan, if_neg hb, if_pos h]

theorem scan_separator (h : isSeparator b = true) :
    scan (.plain none) word (b :: rest) = flush word ++ scan (.plain none) [] rest := by
  have hother : b ≠ ascii '\\' ∧ isQuote b ≠ true := by
    simp only [isSeparator_eq_true_iff, List.mem_cons, List.not_mem_nil, or_false] at h
    rcases h with rfl | rfl | rfl | rfl <;> decide
  rw [scan, if_neg hother.1, if_neg hother.2, if_pos h]

theorem scan_plain (h : isSpecial b = false) :
    scan (.plain none) word (b :: rest) = scan (.plain none) (b :: word) rest := by
  simp only [isSpecial, Bool.or_eq_false_iff, beq_eq_false_iff_ne] at h
  obtain ⟨⟨hb, hq⟩, hs⟩ := h
  rw [scan, if_neg hb, if_neg (by simp [hq]), if_neg (by simp [hs])]

/-- The bytes that mean something are of three kinds. -/
theorem byte_cases (b : UInt8) :
    b = ascii '\\' ∨ isQuote b = true ∨ isSeparator b = true ∨ isSpecial b = false := by
  cases h : isSpecial b with
  | false => exact .inr (.inr (.inr rfl))
  | true =>
    simp only [isSpecial, Bool.or_eq_true, beq_iff_eq] at h
    tauto

/-- Each byte is kept, is dropped, or ends the word. -/
theorem scan_cons_cases (m : Mode) (word : Bytes) (b : UInt8) (rest : Bytes) :
    (∃ q, scan m word (b :: rest) = scan (.plain q) (b :: word) rest) ∨
      (∃ m', scan m word (b :: rest) = scan m' word rest) ∨
      scan m word (b :: rest) = flush word ++ scan (.plain none) [] rest := by
  cases m with
  | escaped q => exact .inl ⟨q, by rw [scan]⟩
  | plain q =>
    cases q with
    | none =>
      rcases byte_cases b with rfl | h | h | h
      · exact .inr (.inl ⟨_, scan_backslash word rest⟩)
      · exact .inr (.inl ⟨_, scan_quote h⟩)
      · exact .inr (.inr (scan_separator h))
      · exact .inl ⟨_, scan_plain h⟩
    | some q =>
      by_cases hclose : b = q
      · exact .inr (.inl ⟨_, by rw [scan, if_pos hclose]⟩)
      by_cases hescape : b = ascii '\\'
      · exact .inr (.inl ⟨_, by rw [scan, if_neg hclose, if_pos hescape]⟩)
      · exact .inl ⟨_, by rw [scan, if_neg hclose, if_neg hescape]⟩

theorem mem_flush_iff : w ∈ flush word ↔ word ≠ [] ∧ w = word.reverse := by
  cases word with
  | nil => exact iff_of_false List.not_mem_nil fun h => h.1 rfl
  | cons b word => simp [flush]

/-- The words have no bytes but those of the text; a backslash at its end can be one of them. -/
theorem mem_of_mem_scan (hw : w ∈ scan m word text) (hb : b ∈ w) :
    b ∈ word ∨ b ∈ text ∨ b = ascii '\\' := by
  have hflush : ∀ {word : Bytes}, w ∈ flush word → b ∈ word := by
    intro word h
    rwa [(mem_flush_iff.1 h).2, List.mem_reverse] at hb
  induction text generalizing m word with
  | nil =>
    cases m with
    | plain q => exact .inl (hflush hw)
    | escaped q => simpa [or_comm] using hflush hw
  | cons c rest ih =>
    rw [List.mem_cons]
    rcases scan_cons_cases m word c rest with ⟨q, h⟩ | ⟨m', h⟩ | h <;> rw [h] at hw
    · have hrest := ih hw
      rw [List.mem_cons] at hrest
      tauto
    · have hrest := ih hw
      tauto
    · rcases List.mem_append.1 hw with hw | hw
      · exact .inl (hflush hw)
      · have hrest := ih hw
        rw [List.mem_nil_iff] at hrest
        tauto

/-- No word is empty. -/
theorem ne_nil_of_mem_scan (hw : w ∈ scan m word text) : w ≠ [] := by
  have hflush : ∀ {word : Bytes}, w ∈ flush word → w ≠ [] := by
    intro word h
    obtain ⟨hne, rfl⟩ := mem_flush_iff.1 h
    simpa using hne
  induction text generalizing m word with
  | nil =>
    cases m with
    | plain q => exact hflush hw
    | escaped q => exact hflush hw
  | cons b rest ih =>
    rcases scan_cons_cases m word b rest with ⟨q, h⟩ | ⟨m', h⟩ | h <;> rw [h] at hw
    · exact ih hw
    · exact ih hw
    · exact (List.mem_append.1 hw).elim hflush ih

/-! ### Texts without words -/

/-- White space and quotes with nothing between them; the last quote may be left open. -/
inductive Wordless : Bytes → Prop
  | nil : Wordless []
  | separator {b : UInt8} {rest : Bytes} : isSeparator b = true → Wordless rest →
      Wordless (b :: rest)
  | quotes {q : UInt8} {rest : Bytes} : isQuote q = true → Wordless rest → Wordless (q :: q :: rest)
  | unclosed {q : UInt8} : isQuote q = true → Wordless [q]

/-- A word that has been started is found. -/
theorem scan_ne_nil (h : word ≠ []) : scan m word text ≠ [] := by
  have hflush : ∀ {word : Bytes}, word ≠ [] → flush word ≠ [] := by
    intro word h
    simp [flush, h]
  induction text generalizing m word with
  | nil =>
    cases m with
    | plain q => exact hflush h
    | escaped q => exact hflush (List.cons_ne_nil _ word)
  | cons b rest ih =>
    rcases scan_cons_cases m word b rest with ⟨q, heq⟩ | ⟨m', heq⟩ | heq <;> rw [heq]
    · exact ih (List.cons_ne_nil b word)
    · exact ih h
    · exact List.append_ne_nil_of_left_ne_nil (hflush h) _

/-- So is one that starts with a backslash. -/
theorem scan_escaped_ne_nil : scan (.escaped q) word text ≠ [] := by
  cases text with
  | nil => simp [scan, flush]
  | cons b rest =>
    rw [scan]
    exact scan_ne_nil (List.cons_ne_nil b word)

theorem wordless_of_scan :
    (scan (.plain none) [] text = [] → Wordless text) ∧
      ∀ q, isQuote q = true → scan (.plain (some q)) [] text = [] → Wordless (q :: text) := by
  induction text with
  | nil => exact ⟨fun _ => .nil, fun q hq _ => .unclosed hq⟩
  | cons b rest ih =>
    refine ⟨fun h => ?_, fun q hq h => ?_⟩
    · rcases byte_cases b with rfl | hb | hb | hb
      · rw [scan_backslash] at h
        exact absurd h scan_escaped_ne_nil
      · rw [scan_quote hb] at h
        exact ih.2 b hb h
      · rw [scan_separator hb] at h
        exact .separator hb (ih.1 h)
      · rw [scan_plain hb] at h
        exact absurd h (scan_ne_nil (List.cons_ne_nil b []))
    · rw [scan] at h
      split at h
      · rename_i hclose
        subst hclose
        exact .quotes hq (ih.1 h)
      split at h
      · exact absurd h scan_escaped_ne_nil
      · exact absurd h (scan_ne_nil (List.cons_ne_nil b []))

theorem splitWords_eq_nil_iff : splitWords text = [] ↔ Wordless text := by
  unfold splitWords
  rw [List.map_eq_nil_iff]
  refine ⟨wordless_of_scan.1, fun h => ?_⟩
  induction h with
  | nil => rfl
  | separator hb _ ih =>
    rw [scan_separator hb, ih]
    rfl
  | quotes hq _ ih => rw [scan_quote hq, scan, if_pos rfl, ih]
  | unclosed hq => rw [scan_quote hq]; rfl

/-! ### Counting -/

/-- The bytes of words, and one for the end of each. -/
def weight : List Bytes → ℕ
  | [] => 0
  | word :: words => word.length + 1 + weight words

theorem weight_append (words words' : List Bytes) :
    weight (words ++ words') = weight words + weight words' := by
  induction words with
  | nil => rw [List.nil_append, weight, Nat.zero_add]
  | cons word words ih =>
    rw [List.cons_append, weight, weight, ih]
    omega

theorem weight_flush_le (word : Bytes) : weight (flush word) ≤ word.length + 1 := by
  unfold flush
  split <;> simp [weight]

/-- What the end of a text can add: the end of a word, and a backslash with nothing behind it. -/
def Mode.pending : Mode → ℕ
  | plain _ => 1
  | escaped _ => 2

/-- A text has no more bytes of words and ends of words than bytes, and its own end. -/
theorem weight_scan_le (m : Mode) (word text : Bytes) :
    weight (scan m word text) ≤ word.length + text.length + m.pending := by
  have hpending : ∀ m : Mode, 1 ≤ m.pending ∧ m.pending ≤ 2 := fun m => by
    cases m <;> simp [Mode.pending]
  induction text generalizing m word with
  | nil =>
    cases m with
    | plain q => exact weight_flush_le word
    | escaped q => exact weight_flush_le (ascii '\\' :: word)
  | cons b rest ih =>
    rw [List.length_cons]
    rcases scan_cons_cases m word b rest with ⟨q, h⟩ | ⟨m', h⟩ | h <;> rw [h]
    · have hrest := ih (.plain q) (b :: word)
      have hm := hpending m
      simp only [List.length_cons, Mode.pending] at hrest
      omega
    · have hrest := ih m' word
      have hm := hpending m
      have hm' := hpending m'
      omega
    · have hrest := ih (.plain none) []
      have hword := weight_flush_le word
      have hm := hpending m
      simp only [List.length_nil, Mode.pending] at hrest
      rw [weight_append]
      omega

/-- If there are as many as there can be, and the text does not end in a backslash, then nothing in
it meant more than itself, so all words are plain. -/
theorem plain_of_weight_scan (hend : text.getLast? ≠ some (ascii '\\'))
    (hword : ∀ b ∈ word, isSpecial b = false)
    (h : weight (scan (.plain none) word text) = word.length + text.length + 1) :
    ∀ w ∈ scan (.plain none) word text, Plain w := by
  have hflush : ∀ {word : Bytes}, (∀ b ∈ word, isSpecial b = false) →
      ∀ w ∈ flush word, Plain w := by
    intro word hword w h
    obtain ⟨hne, rfl⟩ := mem_flush_iff.1 h
    refine ⟨by simpa using hne, fun b hb => ?_⟩
    exact isSpecial_eq_false_iff.1 (hword b (List.mem_reverse.1 hb))
  induction text generalizing word with
  | nil => exact hflush hword
  | cons b rest ih =>
    have hrest : rest.getLast? ≠ some (ascii '\\') := by
      cases rest with
      | nil => simp
      | cons c rest => rwa [List.getLast?_cons_cons] at hend
    rw [List.length_cons] at h
    rcases byte_cases b with rfl | hb | hb | hb
    · -- the backslash is dropped, and the byte behind it kept
      cases rest with
      | nil => exact absurd rfl hend
      | cons c rest =>
        rw [scan_backslash, scan] at h
        have hle := weight_scan_le (.plain none) (c :: word) rest
        simp only [List.length_cons, Mode.pending] at h hle
        omega
    · -- the quote is dropped
      rw [scan_quote hb] at h
      have hle := weight_scan_le (.plain (some b)) word rest
      simp only [Mode.pending] at hle
      omega
    · rw [scan_separator hb, weight_append] at h
      have hle := weight_scan_le (.plain none) [] rest
      have hleft := weight_flush_le word
      simp only [List.length_nil, Mode.pending] at hle
      rw [scan_separator hb, List.forall_mem_append]
      have hright :
          weight (scan (.plain none) [] rest) = ([] : Bytes).length + rest.length + 1 := by
        rw [List.length_nil]
        omega
      exact ⟨hflush hword, ih hrest (List.forall_mem_nil _) hright⟩
    · rw [scan_plain hb] at h ⊢
      exact ih hrest (List.forall_mem_cons.2 ⟨hb, hword⟩) (by rw [List.length_cons]; omega)

/-! ### Joined words -/

@[simp]
theorem joinWords_singleton (w : Bytes) : joinWords [w] = w := List.intercalate_singleton

theorem joinWords_cons_cons (w w' : Bytes) (words : List Bytes) :
    joinWords (w :: w' :: words) = w ++ ascii ' ' :: joinWords (w' :: words) := by
  unfold joinWords
  rw [List.intercalate_cons_cons, List.append_assoc]
  rfl

theorem joinWords_eq_nil_iff : joinWords words = [] ↔ words = [] ∨ words = [[]] := by
  rcases words with _ | ⟨w, _ | ⟨w', words⟩⟩
  · exact iff_of_true rfl (.inl rfl)
  · simp
  · simp [joinWords_cons_cons]

/-- Words with single spaces between them have a byte for each byte and each end but the last. -/
theorem weight_eq (h : words ≠ []) : weight words = (joinWords words).length + 1 := by
  obtain ⟨w, words, rfl⟩ := List.exists_cons_of_ne_nil h
  clear h
  induction words generalizing w with
  | nil => simp [weight]
  | cons w' words ih =>
    rw [weight, ih, joinWords_cons_cons, List.length_append, List.length_cons]
    omega

theorem mem_of_mem_joinWords (hb : b ∈ joinWords words) : b = ascii ' ' ∨ ∃ w ∈ words, b ∈ w := by
  induction words with
  | nil => cases hb
  | cons w words ih =>
    cases words with
    | nil => exact .inr ⟨w, List.mem_singleton_self w, joinWords_singleton w ▸ hb⟩
    | cons w' words =>
      rw [joinWords_cons_cons, List.mem_append, List.mem_cons] at hb
      rcases hb with hb | rfl | hb
      · exact .inr ⟨w, List.mem_cons_self, hb⟩
      · exact .inl rfl
      · obtain h | ⟨v, hv, hb⟩ := ih hb
        · exact .inl h
        · exact .inr ⟨v, List.mem_cons_of_mem w hv, hb⟩

/-- A plain word is kept as it is. -/
theorem scan_append (hw : ∀ b ∈ w, isSpecial b = false) (word rest : Bytes) :
    scan (.plain none) word (w ++ rest) = scan (.plain none) (w.reverse ++ word) rest := by
  induction w generalizing word with
  | nil => rfl
  | cons b w ih =>
    rw [List.forall_mem_cons] at hw
    rw [List.cons_append, scan_plain hw.1, ih hw.2, List.reverse_cons, List.append_assoc,
      List.singleton_append]

theorem flush_reverse (h : w ≠ []) : flush w.reverse = [w] := by
  simp [flush, h]

/-- Plain words are read back. -/
theorem scan_joinWords (h : ∀ w ∈ words, Plain w) :
    scan (.plain none) [] (joinWords words) = words := by
  have hscan : ∀ {w : Bytes} (rest : Bytes), Plain w →
      scan (.plain none) [] (w ++ rest) = scan (.plain none) w.reverse rest := by
    intro w rest hw
    rw [scan_append fun b hb => isSpecial_eq_false_iff.2 (hw.2 b hb), List.append_nil]
  induction words with
  | nil => rfl
  | cons w words ih =>
    rw [List.forall_mem_cons] at h
    cases words with
    | nil =>
      have hend := hscan [] h.1
      rw [List.append_nil] at hend
      rw [joinWords_singleton, hend]
      exact flush_reverse h.1.1
    | cons w' words =>
      rw [joinWords_cons_cons, hscan _ h.1, scan_separator (by decide), flush_reverse h.1.1, ih h.2]
      rfl

/-! ### NUL bytes -/

theorem nul_notMem_of_mem_scan (h : 0 ∉ text) (hw : w ∈ scan (.plain none) [] text) : 0 ∉ w := by
  intro hb
  rcases mem_of_mem_scan hw hb with hb | hb | hb
  · cases hb
  · exact h hb
  · exact absurd hb (by decide)

/-- A text without NUL is split as it is scanned. -/
theorem splitWords_eq (h : 0 ∉ text) : splitWords text = scan (.plain none) [] text := by
  unfold splitWords
  refine (List.map_congr_left fun w hw => ?_).trans (List.map_id _)
  have hnul := nul_notMem_of_mem_scan h hw
  refine List.takeWhile_eq_self_iff.2 fun b hb => bne_iff_ne.2 ?_
  rintro rfl
  exact hnul hb

theorem nul_notMem_joinWords (h : ∀ word ∈ words, 0 ∉ word) : 0 ∉ joinWords words := by
  intro hb
  obtain hb | ⟨w, hw, hb⟩ := mem_of_mem_joinWords hb
  · exact absurd hb (by decide)
  · exact h w hw hb

end Words

open Words

variable {argv : List Bytes}

/-- Joined words are read back exactly if they are plain. -/
theorem splitWords_joinWords (hnul : ∀ word ∈ argv, 0 ∉ word)
    (hend : (joinWords argv).getLast? ≠ some (ascii '\\')) :
    splitWords (joinWords argv) = argv ↔ ∀ word ∈ argv, Plain word := by
  rw [splitWords_eq (nul_notMem_joinWords hnul)]
  refine ⟨fun h => ?_, scan_joinWords⟩
  rcases eq_or_ne argv [] with rfl | hne
  · exact List.forall_mem_nil _
  have hfull : weight (scan (.plain none) [] (joinWords argv)) =
      ([] : Bytes).length + (joinWords argv).length + 1 := by
    rw [h, weight_eq hne, List.length_nil, Nat.zero_add]
  have hplain := plain_of_weight_scan hend (List.forall_mem_nil _) hfull
  rwa [h] at hplain

/-- An option that names the compiler takes the place of what was configured. -/
theorem Options.override_compiler [PatternEngine] (o : Options) (text : Bytes)
    (c : Configuration) :
    ({ o with compiler := some text } : Options).override c =
      (o.override c).map fun c' => { c' with compiler := splitWords text } := by
  have hlanguage : ({ o with compiler := some text } : Options).languageIn c = o.languageIn c := rfl
  have hfilter : ({ o with compiler := some text } : Options).filterIn c = o.filterIn c := rfl
  rw [override_eq, override_eq, hlanguage, hfilter]
  cases o.languageIn c with
  | error fault => rfl
  | ok language => cases o.filterIn c <;> rfl

theorem inDirectory_ne_nil {directory name : Bytes} (h : name ≠ []) :
    inDirectory directory name ≠ [] := by
  unfold inDirectory
  split <;> exact List.append_ne_nil_of_right_ne_nil _ h

/-- A candidate is found at a path that is not empty. -/
theorem Environment.ne_nil_of_findProgram? {env : Environment} {program path : Bytes}
    (hprogram : program ∈ candidates) (h : env.findProgram? program = some path) : path ≠ [] := by
  have hnamed : ∀ name ∈ candidates, name ≠ [] := by decide
  obtain ⟨d, -, rfl⟩ := Option.map_eq_some_iff.1 h
  exact inDirectory_ne_nil (hnamed program hprogram)

/-- **A shown command line is read back exactly if its words are plain.**  For a command line
without NUL bytes that does not end in a backslash: its words are those of the text that joins them
exactly if none of them is empty and none has white space, a quote or a backslash.  So the
environment names the command of a reported failure by what the report shows, and an option for the
compiler does, exactly for these. -/
theorem splitWords_joinWords_iff (hnul : ∀ word ∈ argv, 0 ∉ word)
    (hend : (joinWords argv).getLast? ≠ some (ascii '\\')) :
    (splitWords (joinWords argv) = argv ↔ ∀ word ∈ argv, Plain word) ∧
    ∀ f : CommandFailure, f.argv = argv →
      (∀ env : Environment, argv ≠ [] →
        (({ env with cc := some f.commandLine } : Environment).compiler = argv ↔
          ∀ word ∈ argv, Plain word)) ∧
      ∀ [PatternEngine] (o : Options) (c c' : Configuration), o.override c = .ok c' →
        (({ o with compiler := some f.commandLine } : Options).override c =
            .ok { c' with compiler := argv } ↔
          ∀ word ∈ argv, Plain word) := by
  have hsplit := splitWords_joinWords hnul hend
  refine ⟨hsplit, ?_⟩
  rintro f rfl
  refine ⟨fun env hne => ?_, fun o c c' hc => ?_⟩
  · unfold CommandFailure.commandLine Environment.compiler
    cases hline : joinWords f.argv with
    | cons b text => rwa [hline] at hsplit
    | nil =>
      -- the only word is empty, and nothing that is found is
      have hargv := (joinWords_eq_nil_iff.1 hline).resolve_left hne
      refine iff_of_false (fun h => ?_) fun h => ?_
      · rw [hargv, Option.toList_eq_singleton_iff] at h
        obtain ⟨program, hprogram, hpath⟩ := List.exists_of_findSome?_eq_some h
        exact Environment.ne_nil_of_findProgram? hprogram hpath rfl
      · rw [hargv] at h
        exact (h [] (List.mem_singleton_self [])).1 rfl
  · rw [o.override_compiler, hc, ← hsplit]
    refine ⟨fun h => ?_, fun h => ?_⟩
    · exact congrArg Configuration.compiler (Except.ok.inj h)
    · exact congrArg (fun words => Except.ok { c' with compiler := words }) h

/-- Two words whose quotes go together, and a failure of plain ones. -/
theorem splitWords_joinWords_iff_quotes :
    (∀ word ∈ [bytes "'a", bytes "b'"], 0 ∉ word) ∧
      (joinWords [bytes "'a", bytes "b'"]).getLast? ≠ some (ascii '\\') ∧
      splitWords (joinWords [bytes "'a", bytes "b'"]) ≠ [bytes "'a", bytes "b'"] ∧
      ({ cc := some (CommandFailure.mk [bytes "cc", bytes "-E"] [] 1 false).commandLine } :
        Environment).compiler = [bytes "cc", bytes "-E"] := by
  have hnul : ∀ word ∈ [bytes "'a", bytes "b'"], 0 ∉ word := by decide
  have hend : (joinWords [bytes "'a", bytes "b'"]).getLast? ≠ some (ascii '\\') := by decide
  have hplain : ∀ word ∈ [bytes "cc", bytes "-E"], 0 ∉ word := by decide
  obtain ⟨hquotes, -⟩ := splitWords_joinWords_iff hnul hend
  obtain ⟨-, hfailure⟩ := splitWords_joinWords_iff hplain (by decide)
  obtain ⟨henv, -⟩ := hfailure ⟨_, [], 1, false⟩ rfl
  exact ⟨hnul, hend, fun h => absurd (hquotes.1 h) (by decide),
    (henv {} (by decide)).2 (by decide)⟩

/-- A backslash at the very end is read as itself. -/
example : splitWords (joinWords [bytes "a\\"]) = [bytes "a\\"] := by decide

end MacroConstants
