import LuaFold.Fold.Listing
import LuaFold.Proofs.Fold.Name
import LuaFold.Proofs.Json.Reader

/-!
# Listings of regions are read back

The plain listing of the regions of a text has a line for each of them and says all there is to
say about them: a name holds no blank and no line break, so the last blank of a line stands before
the span, and no name looks like the placeholder.  The array says the same, whatever faithful writer
of values it is written by.
-/

namespace LuaFold

/-! ## Lines -/

namespace Text

theorem readLines?_line
    {line : Text}
    (unbroken : '\n' ∉ line)
    (rest : Text) :
    readLines? (line ++ '\n' :: rest) = (readLines? rest).map (line :: ·) := by
  induction line with
  | nil => rw [List.nil_append, readLines?]
  | cons first more ih =>
      obtain ⟨other, unbroken⟩ := not_or.mp (mt List.mem_cons.mpr unbroken)
      rw [List.cons_append, readLines?, ih unbroken]
      · cases readLines? rest <;> rfl
      · exact fun same => other same.symm

/-- Lines that hold no line feed are read back from a text of such lines. -/
theorem readLines?_flatMap
    {lines : List Text}
    (unbroken : ∀ line ∈ lines, '\n' ∉ line) :
    readLines? (lines.flatMap (· ++ ['\n'])) = some lines := by
  induction lines with
  | nil => rfl
  | cons line rest ih =>
      rw [List.flatMap_cons, List.append_assoc, List.singleton_append,
        readLines?_line (unbroken line List.mem_cons_self),
        ih fun other member => unbroken other (List.mem_cons_of_mem _ member)]
      rfl

theorem splitAtLast?_eq_none
    {separator : Char}
    {text : Text}
    (absent : separator ∉ text) :
    splitAtLast? separator text = none := by
  induction text with
  | nil => rfl
  | cons first rest ih =>
      obtain ⟨other, absent⟩ := not_or.mp (mt List.mem_cons.mpr absent)
      rw [splitAtLast?, ih absent]
      exact if_neg (Ne.symm other)

/-- A text is split where the separator stands and does not stand again. -/
theorem splitAtLast?_append
    {separator : Char}
    {behind : Text}
    (absent : separator ∉ behind)
    (front : Text) :
    splitAtLast? separator (front ++ separator :: behind) = some (front, behind) := by
  induction front with
  | nil => simp [splitAtLast?, splitAtLast?_eq_none absent]
  | cons first rest ih => rw [List.cons_append, splitAtLast?, ih]

theorem readNumber?_toDigits (number : Nat) :
    readNumber? (Nat.toDigits 10 number) = some number := by
  have digits : (Nat.toDigits 10 number).all Char.isDigit = true :=
    List.all_eq_true.mpr fun _ member => Json.isDigit_of_mem_toDigits member
  rw [readNumber?, digits, Nat.ofDigitChars_ten_toDigits]
  simp [Nat.toDigits_ne_nil]

end Text

/-! ## Spans -/

namespace Span

theorem toList_render (span : Span) :
    span.render.toList = Nat.toDigits 10 span.start ++ '.' :: '.' :: Nat.toDigits 10 span.stop := by
  simp [render]

theorem read?_render (span : Span) : read? span.render.toList = some span := by
  have digits : ∀ digit ∈ Nat.toDigits 10 span.start, decide (digit ≠ '.') = true := by
    intro digit member
    have isDigit := Json.isDigit_of_mem_toDigits member
    refine decide_eq_true ?_
    rintro rfl
    cases isDigit
  rw [read?, toList_render, List.dropWhile_append_of_pos digits,
    List.takeWhile_append_of_pos digits]
  simp [Text.readNumber?_toDigits]

/-- The characters that spans are written with. -/
theorem isDigit_of_mem_render
    {span : Span}
    {character : Char}
    (member : character ∈ span.render.toList) :
    character.isDigit = true ∨ character = '.' := by
  rw [toList_render] at member
  simp only [List.mem_append, List.mem_cons] at member
  rcases member with digit | rfl | rfl | digit
  · exact Or.inl (Json.isDigit_of_mem_toDigits digit)
  · exact Or.inr rfl
  · exact Or.inr rfl
  · exact Or.inl (Json.isDigit_of_mem_toDigits digit)

end Span

namespace Region

/-- A name that is written with the characters of words, points and colons only. -/
def Plain (region : Region) : Prop :=
  ∀ character ∈ region.name.toList, Text.isNamePart character = true

variable {region : Region}

theorem Plain.not_mem
    (plain : region.Plain)
    {character : Char}
    (other : Text.isNamePart character = false) :
    character ∉ region.name.toList := by
  intro member
  rw [plain character member] at other
  cases other

/-- The line of a region without its line feed. -/
def line (region : Region) : Text :=
  (displayName region.name).toList ++ ' ' :: region.span.render.toList

theorem toList_regionLine (region : Region) :
    (Outcome.regionLine region).toList = region.line ++ ['\n'] := by
  simp [Outcome.regionLine, line]

theorem Plain.lineFeed_not_mem_line (plain : region.Plain) : '\n' ∉ region.line := by
  intro member
  rcases List.mem_append.mp member with shown | written
  · rw [displayName] at shown
    split at shown
    · exact absurd shown (by decide)
    · exact plain.not_mem (by decide) shown
  · rcases List.mem_cons.mp written with blank | inSpan
    · exact absurd blank (by decide)
    · rcases Span.isDigit_of_mem_render inSpan with digit | point
      · exact absurd digit (by decide)
      · exact absurd point (by decide)

theorem Plain.readName_displayName (plain : region.Plain) :
    readName (displayName region.name).toList = region.name := by
  rw [displayName]
  split
  · next empty =>
    rw [readName, if_pos rfl, String.isEmpty_iff.mp empty]
  · rw [readName, String.ofList_toList, if_neg]
    intro same
    have bracket : '<' ∈ region.name.toList := by
      rw [same]
      decide
    exact plain.not_mem (by decide) bracket

theorem Plain.readLine?_line (plain : region.Plain) : readLine? region.line = some region := by
  have unspaced : ' ' ∉ region.span.render.toList := by
    intro member
    rcases Span.isDigit_of_mem_render member with digit | point
    · exact absurd digit (by decide)
    · exact absurd point (by decide)
  rw [readLine?, line, Text.splitAtLast?_append unspaced]
  simp [Span.read?_render, plain.readName_displayName]

/-- The value of a region is this region, also with its fields in order. -/
theorem decode?_settled_encodeRegion (region : Region) :
    decode? (Outcome.encodeRegion region).settled = some region := by
  have name : (Outcome.encodeRegion region).settled.field? "name" = some (.string region.name) := by
    simp [Outcome.encodeRegion, Json.settled, Json.settledFields, Json.field?_addField]
  have start : (Outcome.encodeRegion region).settled.field? "start" =
      some (.ofNat region.span.start) := by
    simp [Outcome.encodeRegion, Json.settled, Json.settledFields, Json.field?_addField, Json.ofNat]
  have stop : (Outcome.encodeRegion region).settled.field? "end" =
      some (.ofNat region.span.stop) := by
    simp [Outcome.encodeRegion, Json.settled, Json.settledFields, Json.field?_addField, Json.ofNat]
  simp [decode?, name, start, stop, Json.ofNat]

theorem fits_encodeRegion
    (levels : Nat)
    (region : Region) :
    Json.Fits (levels + 1) (Outcome.encodeRegion region) := by
  refine .object fun field member => ?_
  simp only [List.mem_cons, List.not_mem_nil, or_false] at member
  rcases member with rfl | rfl | rfl
  · exact .string _
  · exact .number _
  · exact .number _

/-- Items that are written one by one are read one by one. -/
theorem mapM_map_eq_some
    {Item Written : Type}
    {write : Item → Written}
    {read? : Written → Option Item}
    {items : List Item}
    (back : ∀ item ∈ items, read? (write item) = some item) :
    (items.map write).mapM read? = some items := by
  induction items with
  | nil => rfl
  | cons item rest ih =>
      rw [List.map_cons, List.mapM_cons, back item List.mem_cons_self,
        ih fun other member => back other (List.mem_cons_of_mem _ member)]
      rfl

/-- The array of regions is read as these regions. -/
theorem readArray?_listRegions
    {write : Json → String}
    (faithful : Json.Faithful write)
    (regions : List Region) :
    readArray? (Outcome.listRegions write regions true).toList = some regions := by
  have fits : Json.Fits Json.maximalNesting (Json.ofList Outcome.encodeRegion regions) := by
    refine .array fun item member => ?_
    obtain ⟨region, _, rfl⟩ := List.mem_map.mp member
    exact fits_encodeRegion _ region
  have settled : (Json.ofList Outcome.encodeRegion regions).settled =
      .array (regions.map fun region => (Outcome.encodeRegion region).settled) := by
    rw [Json.ofList, Json.settled, Json.settledItems_eq_map, List.map_map]
    rfl
  have written : (Outcome.listRegions write regions true).toList =
      (write (Json.ofList Outcome.encodeRegion regions)).toList ++ ['\n'] := by
    rw [Outcome.listRegions, if_pos rfl, String.toList_append]
    rfl
  rw [readArray?, written, faithful _ fits _ rfl, settled]
  exact mapM_map_eq_some fun region _ => decode?_settled_encodeRegion region

/-- The lines of regions with plain names. -/
theorem readLines?_listRegions
    (write : Json → String)
    {regions : List Region}
    (plain : ∀ region ∈ regions, region.Plain) :
    Text.readLines? (Outcome.listRegions write regions false).toList =
      some (regions.map line) := by
  have written : (Outcome.listRegions write regions false).toList =
      (regions.map line).flatMap (· ++ ['\n']) := by
    rw [Outcome.listRegions, if_neg Bool.false_ne_true, String.toList_join, List.flatMap_map,
      List.flatMap_map]
    simp only [toList_regionLine]
  rw [written]
  refine Text.readLines?_flatMap fun written member => ?_
  obtain ⟨region, inRegions, rfl⟩ := List.mem_map.mp member
  exact (plain region inRegions).lineFeed_not_mem_line

end Region

/--
The plain listing of the regions of a text has a line for every region, in order, and each line is
read back as its region; the array that a faithful writer writes is read back as the same list.
The name of a region holds no blank, no line break and no placeholder.
-/
theorem listing_read_back
    {write : Json → String}
    (faithful : Json.Faithful write)
    (text : Text) :
    (∃ lines, Text.readLines? (Outcome.foldWith write text false).output.toList = some lines ∧
      lines.length = (foldRegions text).length ∧
      lines.mapM Region.readLine? = some (foldRegions text)) ∧
    Region.readArray? (Outcome.foldWith write text true).output.toList =
      some (foldRegions text) ∧
    ∀ region ∈ foldRegions text,
      ' ' ∉ region.name.toList ∧
      '\n' ∉ region.name.toList ∧
      '\r' ∉ region.name.toList ∧
      ¬ "<anonymous>".toList <:+: region.name.toList := by
  have plain : ∀ region ∈ foldRegions text, region.Plain :=
    fun _ member => isNamePart_of_mem_foldRegions member
  refine ⟨⟨(foldRegions text).map Region.line, Region.readLines?_listRegions write plain,
    List.length_map _, ?_⟩, Region.readArray?_listRegions faithful _, ?_⟩
  · exact Region.mapM_map_eq_some fun region member => (plain region member).readLine?_line
  · intro region member
    have named := plain region member
    refine ⟨named.not_mem (by decide), named.not_mem (by decide), named.not_mem (by decide), ?_⟩
    exact fun placed => named.not_mem (by decide) (placed.subset (a := '<') (by decide))

/-- A method whose name goes on behind a comment and a line break, with a function in it. -/
theorem listing_read_back_method :
    let text := "function a.--\n:m() return function() end end".toList
    Json.Faithful Json.indented ∧
      ⟨"a.:m", ⟨0, 44⟩⟩ ∈ foldRegions text ∧
      (∃ lines, Text.readLines? (Outcome.fold text false).output.toList = some lines ∧
        lines.length = (foldRegions text).length ∧
        lines.mapM Region.readLine? = some (foldRegions text)) ∧
      Region.readArray? (Outcome.fold text true).output.toList = some (foldRegions text) ∧
      ' ' ∉ "a.:m".toList ∧
      '\n' ∉ "a.:m".toList ∧
      '\r' ∉ "a.:m".toList ∧
      ¬ "<anonymous>".toList <:+: "a.:m".toList := by
  intro text
  have listed : ⟨"a.:m", ⟨0, 44⟩⟩ ∈ foldRegions text := by decide +kernel
  obtain ⟨lines, array, names⟩ := listing_read_back Json.faithful_indented text
  exact ⟨Json.faithful_indented, listed, lines, array, names _ listed⟩

end LuaFold
