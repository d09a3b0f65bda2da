/-
This file models the string operations the services use: trimming white space
and case folding. White space is the set of characters Python trims. Case
folding lowers the ASCII letters, replaces a few characters by several, and
shifts the others by the Unicode tables, which list only what changes. Folding
leaves white space alone and keeps ASCII text as long as it is, so trimming and
folding do not disturb each other.
-/

import Mathlib.Data.List.DropRight

namespace Trutina

/-! ### Trimming -/

/-- The code points of the white space characters. -/
def spaceCodes : List Nat :=
  [9, 10, 11, 12, 13, 28, 29, 30, 31, 32, 133, 160, 5760, 8192, 8193, 8194, 8195, 8196, 8197,
    8198, 8199, 8200, 8201, 8202, 8232, 8233, 8239, 8287, 12288]

/-- Whether a character is white space. -/
def isSpace (character : Char) : Bool := spaceCodes.contains character.toNat

/-- The text without the white space at both of its ends. -/
def strip (text : String) : String :=
  String.ofList ((text.toList.dropWhile isSpace).rdropWhile isSpace)

/-! ### Case folding -/

/-- The characters that fold to several. -/
def foldExpansions : List (Nat × List Nat) :=
  [(223, [115, 115]), (304, [105, 775]), (329, [700, 110]), (496, [106, 780]),
    (912, [953, 776, 769]), (944, [965, 776, 769]), (1415, [1381, 1410]), (7830, [104, 817]),
    (7831, [116, 776]), (7832, [119, 778]), (7833, [121, 778]), (7834, [97, 702]),
    (7838, [115, 115]), (8016, [965, 787]), (8018, [965, 787, 768]), (8020, [965, 787, 769]),
    (8022, [965, 787, 834]), (8064, [7936, 953]), (8065, [7937, 953]), (8066, [7938, 953]),
    (8067, [7939, 953]), (8068, [7940, 953]), (8069, [7941, 953]), (8070, [7942, 953]),
    (8071, [7943, 953]), (8072, [7936, 953]), (8073, [7937, 953]), (8074, [7938, 953]),
    (8075, [7939, 953]), (8076, [7940, 953]), (8077, [7941, 953]), (8078, [7942, 953]),
    (8079, [7943, 953]), (8080, [7968, 953]), (8081, [7969, 953]), (8082, [7970, 953]),
    (8083, [7971, 953]), (8084, [7972, 953]), (8085, [7973, 953]), (8086, [7974, 953]),
    (8087, [7975, 953]), (8088, [7968, 953]), (8089, [7969, 953]), (8090, [7970, 953]),
    (8091, [7971, 953]), (8092, [7972, 953]), (8093, [7973, 953]), (8094, [7974, 953]),
    (8095, [7975, 953]), (8096, [8032, 953]), (8097, [8033, 953]), (8098, [8034, 953]),
    (8099, [8035, 953]), (8100, [8036, 953]), (8101, [8037, 953]), (8102, [8038, 953]),
    (8103, [8039, 953]), (8104, [8032, 953]), (8105, [8033, 953]), (8106, [8034, 953]),
    (8107, [8035, 953]), (8108, [8036, 953]), (8109, [8037, 953]), (8110, [8038, 953]),
    (8111, [8039, 953]), (8114, [8048, 953]), (8115, [945, 953]), (8116, [940, 953]),
    (8118, [945, 834]), (8119, [945, 834, 953]), (8124, [945, 953]), (8130, [8052, 953]),
    (8131, [951, 953]), (8132, [942, 953]), (8134, [951, 834]), (8135, [951, 834, 953]),
    (8140, [951, 953]), (8146, [953, 776, 768]), (8147, [953, 776, 769]), (8150, [953, 834]),
    (8151, [953, 776, 834]), (8162, [965, 776, 768]), (8163, [965, 776, 769]), (8164, [961, 787]),
    (8166, [965, 834]), (8167, [965, 776, 834]), (8178, [8060, 953]), (8179, [969, 953]),
    (8180, [974, 953]), (8182, [969, 834]), (8183, [969, 834, 953]), (8188, [969, 953]),
    (64256, [102, 102]), (64257, [102, 105]), (64258, [102, 108]), (64259, [102, 102, 105]),
    (64260, [102, 102, 108]), (64261, [115, 116]), (64262, [115, 116]), (64275, [1396, 1398]),
    (64276, [1396, 1381]), (64277, [1396, 1387]), (64278, [1406, 1398]), (64279, [1396, 1389])]

/-- Ranges of characters that fold to one other: the first and last code point, the distance
between two of the range, and the shift. -/
def foldShifts : List (Nat × Nat × Nat × Int) :=
  [(181, 181, 1, 775), (192, 222, 2, 32), (193, 213, 2, 32), (217, 221, 2, 32), (256, 302, 2, 1),
    (306, 310, 2, 1), (313, 327, 2, 1), (330, 374, 2, 1), (376, 376, 1, -121), (377, 381, 2, 1),
    (383, 383, 1, -268), (385, 385, 1, 210), (386, 388, 2, 1), (390, 390, 1, 206),
    (391, 391, 1, 1), (393, 394, 1, 205), (395, 395, 1, 1), (398, 398, 1, 79), (399, 399, 1, 202),
    (400, 400, 1, 203), (401, 401, 1, 1), (403, 403, 1, 205), (404, 404, 1, 207),
    (406, 406, 1, 211), (407, 407, 1, 209), (408, 408, 1, 1), (412, 412, 1, 211),
    (413, 413, 1, 213), (415, 415, 1, 214), (416, 420, 2, 1), (422, 422, 1, 218),
    (423, 423, 1, 1), (425, 425, 1, 218), (428, 428, 1, 1), (430, 430, 1, 218), (431, 431, 1, 1),
    (433, 434, 1, 217), (435, 437, 2, 1), (439, 439, 1, 219), (440, 440, 1, 1), (444, 444, 1, 1),
    (452, 452, 1, 2), (453, 453, 1, 1), (455, 455, 1, 2), (456, 456, 1, 1), (458, 458, 1, 2),
    (459, 475, 2, 1), (478, 494, 2, 1), (497, 497, 1, 2), (498, 500, 2, 1), (502, 502, 1, -97),
    (503, 503, 1, -56), (504, 542, 2, 1), (544, 544, 1, -130), (546, 562, 2, 1),
    (570, 570, 1, 10795), (571, 571, 1, 1), (573, 573, 1, -163), (574, 574, 1, 10792),
    (577, 577, 1, 1), (579, 579, 1, -195), (580, 580, 1, 69), (581, 581, 1, 71), (582, 590, 2, 1),
    (837, 837, 1, 116), (880, 882, 2, 1), (886, 886, 1, 1), (895, 895, 1, 116), (902, 902, 1, 38),
    (904, 906, 1, 37), (908, 908, 1, 64), (910, 911, 1, 63), (913, 939, 2, 32), (914, 928, 2, 32),
    (932, 938, 2, 32), (962, 962, 1, 1), (975, 975, 1, 8), (976, 976, 1, -30), (977, 977, 1, -25),
    (981, 981, 1, -15), (982, 982, 1, -22), (984, 1006, 2, 1), (1008, 1008, 1, -54),
    (1009, 1009, 1, -48), (1012, 1012, 1, -60), (1013, 1013, 1, -64), (1015, 1015, 1, 1),
    (1017, 1017, 1, -7), (1018, 1018, 1, 1), (1021, 1023, 1, -130), (1024, 1039, 1, 80),
    (1040, 1071, 1, 32), (1120, 1152, 2, 1), (1162, 1214, 2, 1), (1216, 1216, 1, 15),
    (1217, 1229, 2, 1), (1232, 1326, 2, 1), (1329, 1366, 1, 48), (4256, 4293, 1, 7264),
    (4295, 4295, 1, 7264), (4301, 4301, 1, 7264), (5112, 5117, 1, -8), (7296, 7296, 1, -6222),
    (7297, 7297, 1, -6221), (7298, 7298, 1, -6212), (7299, 7300, 1, -6210),
    (7301, 7301, 1, -6211), (7302, 7302, 1, -6204), (7303, 7303, 1, -6180),
    (7304, 7304, 1, 35267), (7305, 7305, 1, 1), (7312, 7354, 1, -3008), (7357, 7359, 1, -3008),
    (7680, 7828, 2, 1), (7835, 7835, 1, -58), (7840, 7934, 2, 1), (7944, 7951, 1, -8),
    (7960, 7965, 1, -8), (7976, 7983, 1, -8), (7992, 7999, 1, -8), (8008, 8013, 1, -8),
    (8025, 8031, 2, -8), (8040, 8047, 1, -8), (8120, 8121, 1, -8), (8122, 8123, 1, -74),
    (8126, 8126, 1, -7173), (8136, 8139, 1, -86), (8152, 8153, 1, -8), (8154, 8155, 1, -100),
    (8168, 8169, 1, -8), (8170, 8171, 1, -112), (8172, 8172, 1, -7), (8184, 8185, 1, -128),
    (8186, 8187, 1, -126), (8486, 8486, 1, -7517), (8490, 8490, 1, -8383), (8491, 8491, 1, -8262),
    (8498, 8498, 1, 28), (8544, 8559, 1, 16), (8579, 8579, 1, 1), (9398, 9423, 1, 26),
    (11264, 11311, 1, 48), (11360, 11360, 1, 1), (11362, 11362, 1, -10743),
    (11363, 11363, 1, -3814), (11364, 11364, 1, -10727), (11367, 11371, 2, 1),
    (11373, 11373, 1, -10780), (11374, 11374, 1, -10749), (11375, 11375, 1, -10783),
    (11376, 11376, 1, -10782), (11378, 11378, 1, 1), (11381, 11381, 1, 1),
    (11390, 11391, 1, -10815), (11392, 11490, 2, 1), (11499, 11501, 2, 1), (11506, 11506, 1, 1),
    (42560, 42604, 2, 1), (42624, 42650, 2, 1), (42786, 42798, 2, 1), (42802, 42862, 2, 1),
    (42873, 42875, 2, 1), (42877, 42877, 1, -35332), (42878, 42886, 2, 1), (42891, 42891, 1, 1),
    (42893, 42893, 1, -42280), (42896, 42898, 2, 1), (42902, 42920, 2, 1),
    (42922, 42922, 1, -42308), (42923, 42923, 1, -42319), (42924, 42924, 1, -42315),
    (42925, 42925, 1, -42305), (42926, 42926, 1, -42308), (42928, 42928, 1, -42258),
    (42929, 42929, 1, -42282), (42930, 42930, 1, -42261), (42931, 42931, 1, 928),
    (42932, 42946, 2, 1), (42948, 42948, 1, -48), (42949, 42949, 1, -42307),
    (42950, 42950, 1, -35384), (42951, 42953, 2, 1), (42955, 42955, 1, -42343),
    (42956, 42956, 1, 1), (42960, 42960, 1, 1), (42966, 42970, 2, 1), (42972, 42972, 1, -42561),
    (42997, 42997, 1, 1), (43888, 43967, 1, -38864), (65313, 65338, 1, 32), (66560, 66599, 1, 40),
    (66736, 66771, 1, 40), (66928, 66964, 2, 39), (66929, 66937, 2, 39), (66941, 66953, 2, 39),
    (66957, 66961, 2, 39), (66965, 66965, 1, 39), (68736, 68786, 1, 64), (68944, 68965, 1, 32),
    (71840, 71871, 1, 32), (93760, 93791, 1, 32), (125184, 125217, 1, 34)]

/-- The code point a single character folds to. -/
def foldCode (code : Nat) : Nat :=
  match foldShifts.find? fun (first, last, step, _) =>
      first ≤ code && code ≤ last && (code - first) % step == 0 with
  | some (_, _, _, shift) => (code + shift).toNat
  | none => code

/-- The case folding of one character. -/
def foldCharacter (character : Char) : List Char :=
  if character.toNat < 128 then [character.toLower]
  else
    match foldExpansions.lookup character.toNat with
    | some codes => codes.map Char.ofNat
    | none => [Char.ofNat (foldCode character.toNat)]

/-- The case folding of a text. -/
def casefold (text : String) : String := String.ofList (text.toList.flatMap foldCharacter)

example : strip "\t Cash \n" = "Cash" := by decide +kernel

example : casefold "Straße É" = "strasse é" := by decide +kernel

/-! ### Trimming and folding together -/

theorem isSpace_iff {character : Char} :
    isSpace character = true ↔ character ∈ spaceCodes.map Char.ofNat := by
  have round : ∀ code ∈ spaceCodes, (Char.ofNat code).toNat = code := by decide
  simp only [isSpace, List.contains_iff_mem, List.mem_map]
  constructor
  · intro member
    exact ⟨character.toNat, member, Char.ofNat_toNat character⟩
  · rintro ⟨code, member, rfl⟩
    rwa [round code member]

/-- White space folds to itself. -/
theorem foldCharacter_of_isSpace {character : Char} (space : isSpace character = true) :
    foldCharacter character = [character] := by
  have each : ∀ code ∈ spaceCodes, foldCharacter (Char.ofNat code) = [Char.ofNat code] := by
    decide +kernel
  obtain ⟨code, member, rfl⟩ := List.mem_map.mp (isSpace_iff.mp space)
  exact each code member

theorem foldCharacter_ascii {character : Char} (ascii : character.toNat < 128) :
    foldCharacter character = [character.toLower] := if_pos ascii

theorem flatMap_foldCharacter_spaces {characters : List Char}
    (spaces : ∀ character ∈ characters, isSpace character = true) :
    characters.flatMap foldCharacter = characters := by
  induction characters with
  | nil => rfl
  | cons character rest inductionHypothesis =>
    rw [List.flatMap_cons, foldCharacter_of_isSpace (spaces character List.mem_cons_self),
      inductionHypothesis fun other member => spaces other (List.mem_cons_of_mem _ member)]
    rfl

/-- A text is its trimmed form between two runs of white space. -/
theorem strip_split (text : String) :
    ∃ before after, text.toList = before ++ (strip text).toList ++ after ∧
      (∀ character ∈ before, isSpace character = true) ∧
      ∀ character ∈ after, isSpace character = true := by
  refine ⟨text.toList.takeWhile isSpace, (text.toList.dropWhile isSpace).rtakeWhile isSpace, ?_,
    fun character member => List.mem_takeWhile_imp member,
    fun character member => List.mem_rtakeWhile_imp member⟩
  rw [strip, String.toList_ofList, List.append_assoc, List.rdropWhile_append_rtakeWhile,
    List.takeWhile_append_dropWhile]

/-- Neither end of the text is white space. -/
structure Trimmed (text : String) : Prop where
  front : ∀ first rest, text.toList = first :: rest → isSpace first = false
  back : ∀ rest last, text.toList = rest ++ [last] → isSpace last = false

theorem strip_trimmed (text : String) : Trimmed (strip text) := by
  constructor
  · intro first rest split
    rw [strip, String.toList_ofList] at split
    obtain ⟨tail, whole⟩ := List.rdropWhile_prefix isSpace (l := text.toList.dropWhile isSpace)
    rw [split, List.cons_append] at whole
    have head := List.head?_dropWhile_not isSpace text.toList
    rw [← whole] at head
    exact head
  · intro rest last split
    rw [strip, String.toList_ofList] at split
    have nonempty : (text.toList.dropWhile isSpace).rdropWhile isSpace ≠ [] := by
      rw [split]
      exact List.append_ne_nil_of_right_ne_nil _ (List.cons_ne_nil _ _)
    have ends := List.rdropWhile_last_not isSpace _ nonempty
    simp only [split, List.getLast_append_singleton] at ends
    exact Bool.eq_false_iff.mpr ends

theorem strip_of_trimmed {text : String} (trimmed : Trimmed text) : strip text = text := by
  have front : text.toList.dropWhile isSpace = text.toList := by
    cases split : text.toList with
    | nil => rfl
    | cons first rest => rw [List.dropWhile_cons_of_neg]; simp [trimmed.front first rest split]
  have back : text.toList.rdropWhile isSpace = text.toList := by
    rcases List.eq_nil_or_concat text.toList with split | ⟨rest, last, split⟩
    · rw [split]
      rfl
    · rw [List.concat_eq_append] at split
      rw [split, List.rdropWhile_concat_neg]
      simp [trimmed.back rest last split]
  rw [strip, front, back, String.ofList_toList]

theorem strip_strip (text : String) : strip (strip text) = strip text :=
  strip_of_trimmed (strip_trimmed text)

/-- A text that folds to a trimmed text is trimmed itself. -/
theorem strip_of_trimmed_casefold {text : String} (trimmed : Trimmed (casefold text)) :
    strip text = text := by
  obtain ⟨before, after, split, spacesBefore, spacesAfter⟩ := strip_split text
  have folded : (casefold text).toList =
      before ++ (strip text).toList.flatMap foldCharacter ++ after := by
    rw [casefold, String.toList_ofList, split, List.flatMap_append, List.flatMap_append,
      flatMap_foldCharacter_spaces spacesBefore, flatMap_foldCharacter_spaces spacesAfter]
  have noneBefore : before = [] := by
    cases before with
    | nil => rfl
    | cons first rest =>
      have letter := trimmed.front first _ (by rw [folded, List.append_assoc, List.cons_append])
      rw [spacesBefore first List.mem_cons_self] at letter
      cases letter
  have noneAfter : after = [] := by
    rcases List.eq_nil_or_concat after with none | ⟨rest, last, concat⟩
    · exact none
    · rw [List.concat_eq_append] at concat
      have letter := trimmed.back _ last (by rw [folded, concat, ← List.append_assoc])
      rw [spacesAfter last (by simp [concat])] at letter
      cases letter
  rw [noneBefore, noneAfter, List.nil_append, List.append_nil] at split
  exact String.toList_injective split.symm

/-! ### ASCII text -/

/-- Every character of the text is ASCII. -/
def Ascii (text : String) : Prop := ∀ character ∈ text.toList, character.toNat < 128

theorem casefold_ascii {text : String} (ascii : Ascii text) :
    (casefold text).toList = text.toList.map Char.toLower := by
  have each : ∀ characters : List Char, (∀ character ∈ characters, character.toNat < 128) →
      characters.flatMap foldCharacter = characters.map Char.toLower := by
    intro characters
    induction characters with
    | nil => exact fun _ => rfl
    | cons character rest inductionHypothesis =>
      intro small
      rw [List.flatMap_cons, foldCharacter_ascii (small character List.mem_cons_self),
        inductionHypothesis fun other member => small other (List.mem_cons_of_mem _ member)]
      rfl
  rw [casefold, String.toList_ofList, each _ ascii]

theorem isSpace_toLower {character : Char} (ascii : character.toNat < 128) :
    isSpace character.toLower = isSpace character := by
  have each : ∀ code < 128, isSpace (Char.ofNat code).toLower = isSpace (Char.ofNat code) := by
    decide +kernel
  have here := each character.toNat ascii
  rwa [Char.ofNat_toNat] at here

theorem casefold_trimmed {text : String} (ascii : Ascii text) (trimmed : Trimmed text) :
    Trimmed (casefold text) := by
  constructor
  · intro first rest split
    rw [casefold_ascii ascii, List.map_eq_cons_iff] at split
    obtain ⟨original, others, whole, rfl, rfl⟩ := split
    rw [isSpace_toLower (ascii original (by simp [whole]))]
    exact trimmed.front original others whole
  · intro rest last split
    rw [casefold_ascii ascii, List.map_eq_append_iff] at split
    obtain ⟨others, ending, whole, rfl, single⟩ := split
    obtain ⟨original, rfl, rfl⟩ := List.map_eq_singleton_iff.mp single
    rw [isSpace_toLower (ascii original (by simp [whole]))]
    exact trimmed.back others original whole

end Trutina
