import Macaque.Proofs.Codes
import Macaque.Proofs.Limits
import Macaque.Proofs.Output
import Mathlib.Data.List.Nodup

/-!
# Reading back what is written about tokens

The lines of a list of tokens, and those of a session, are made for people, but nothing is lost in
them. The list says of every token what it is and where it stands; the transcript of a session says
which lines were entered, as far as their tokens go, and no prompt looks like a token.

## Architecture

- **Tokens**: the line of a token tells its content (`tells_entry`), and with its place in front the
  whole token (`tells_row`)
- **Lists**: `lists_tell_tokens` for runs that list the tokens of a file
- **Transcripts**: a row of tokens goes up to the next prompt (`tells_entriesPrompt`), and the rows
  go up to the line feed behind the last prompt (`contents_of_listing`); `session_tells_tokens`
-/

namespace Macaque

/-! ## Tokens -/

namespace Kind

def all : List Kind :=
  [illegal, endOfText, identifier, integer] ++ Symbol.all.map symbol ++ Keyword.all.map keyword

theorem mem_all (kind : Kind) : kind ∈ all := by
  cases kind with
  | symbol s => cases s <;> simp [all, Symbol.all]
  | keyword w => cases w <;> simp [all, Keyword.all]
  | _ => simp [all]

/-- No two kinds are shown under the same name. -/
theorem label_injective {kind other : Kind} (h : kind.label = other.label) : kind = other := by
  have hnodup : (all.map label).Nodup := by decide +kernel
  exact List.inj_on_of_nodup_map hnodup kind.mem_all other.mem_all h

theorem lacks_space_label (kind : Kind) : Lacks ' ' kind.label := by
  have hall : ∀ kind ∈ all, Lacks ' ' kind.label := by decide +kernel
  exact hall kind kind.mem_all

end Kind

/-- No character but a digit is in a number. -/
theorem lacks_toString {c : Char} (h : isDigit c = false) (n : Nat) : Lacks c (toString n) := by
  intro hmem
  rw [Nat.toString_eq_repr, Nat.toList_repr] at hmem
  have hdigit := Nat.isDigit_of_mem_toDigits (by decide) (by decide) hmem
  simp [isDigit, hdigit] at h

namespace Token

theorem entry_plain (token : Token) :
    token.entry false =
      Text.padRight 9 token.kind.label ++ " " ++ Text.quoted token.literal := by
  simp [entry, Text.Hue.paintIf, Text.Hue.paintBoldIf]

theorem graphic_entry (token : Token) : Graphic (token.entry false) := by
  have hlabel := Text.graphic_padRight 9 token.kind.graphic_label
  rw [entry_plain]
  exact (hlabel.append (by decide)).append (Text.graphic_quoted _)

/-- The line of a token tells its kind and its text, whatever that is. -/
theorem tells_entry : Tells content fun token => (token.entry false).toList := by
  have hkind : Tells kind fun token => (Text.padRight 9 token.kind.label).toList ++ [' '] :=
    Text.tells_padRight 9 (fun token => token.kind.lacks_space_label)
      fun _ _ => Kind.label_injective
  have hliteral : Tells literal fun token => (Text.quoted token.literal).toList :=
    fun _ _ _ _ hcode => Text.tells_quoted hcode
  have hcode (token : Token) : (token.entry false).toList =
      (Text.padRight 9 token.kind.label).toList ++ [' '] ++ (Text.quoted token.literal).toList := by
    simp [entry_plain]
  simp only [hcode]
  exact hkind.append hliteral

/-- The line of a token with its place in front tells all about the token, however long the numbers
are. -/
theorem tells_row : Tells id fun token : Token => (token.row false).toList := by
  have hline : Tells (·.location.line) fun token : Token =>
      (Text.padLeft 4 (toString token.location.line)).toList ++ [':'] :=
    Text.tells_padLeft 4 (by decide) (fun _ => lacks_toString (by decide) _)
      (fun _ => lacks_toString (by decide) _) fun _ _ => toString_injective
  have hcolumn : Tells (·.location.column) fun token : Token =>
      (Text.padRight 3 (toString token.location.column)).toList ++ [' '] :=
    Text.tells_padRight 3 (fun _ => lacks_toString (by decide) _) fun _ _ => toString_injective
  -- line, column, kind and literal are all that there is to a token
  have hall (token other : Token)
      (hsame : ((token.location.line, token.location.column), token.content) =
        ((other.location.line, other.location.column), other.content)) :
      id token = id other := by
    obtain ⟨kind, literal, ⟨line, column⟩⟩ := token
    obtain ⟨kind', literal', ⟨line', column'⟩⟩ := other
    simp only [content, Prod.mk.injEq] at hsame
    obtain ⟨⟨rfl, rfl⟩, rfl, rfl⟩ := hsame
    rfl
  have hrow := ((hline.append hcolumn).append tells_entry).of_view hall
  simpa [row] using hrow

end Token

/-! ## Lists -/

namespace Command

/-- Whether a setting asks for the tokens of the file at a path and is one without colours -/
def Setting.ListsPlainly (setting : Setting) (path : String) : Prop :=
  ∃ options, Options.ofArguments setting.arguments = .ok options ∧ options.mode = .list path ∧
    (options.coloured && setting.terminal) = false

/-- A run that lists the tokens of a file without colours writes their rows, and nothing else. -/
theorem Setting.ListsPlainly.written {setting : Setting} {path source : String}
    (h : setting.ListsPlainly path) (hentry : setting.entry path = .file (encode source)) :
    ((run setting).written .output).toList =
      (tokens source).flatMap fun token => (token.row false).toList ++ ['\n'] := by
  obtain ⟨options, hoptions, hmode, hplain⟩ := h
  simp only [run, hoptions]
  rw [perform_list hmode hentry, written_list, String.toList_join, List.flatMap_map]
  simp [hplain]

/-- A list of tokens can be read back. The line of a token is one line, whatever its text, and tells
the kind and the text; with the place in front of it, however long the numbers there are, it tells
the token. A run that lists the tokens of a file, without colours, therefore tells all of them, the
end too, and where each of them stands. -/
theorem lists_tell_tokens :
    (∀ token : Token, OneLine (token.entry false)) ∧
      (∀ token other : Token, token.entry false = other.entry false →
        token.kind = other.kind ∧ token.literal = other.literal) ∧
      (∀ token other : Token, token.row false = other.row false → token = other) ∧
      ∀ (first second : Setting) (path again source other : String),
        first.ListsPlainly path → second.ListsPlainly again →
          first.entry path = .file (encode source) → second.entry again = .file (encode other) →
            (run first).written .output = (run second).written .output →
              tokens source = tokens other := by
  refine ⟨fun token => token.graphic_entry.oneLine, ?_, ?_, ?_⟩
  · intro token other hentry
    have hcontent := Token.tells_entry.view_eq (congrArg String.toList hentry)
    simpa [Token.content] using hcontent
  · intro token other hrow
    exact Token.tells_row.view_eq (congrArg String.toList hrow)
  · intro first second path again source other hfirst hsecond hsource hother hwritten
    have hrows := congrArg String.toList hwritten
    rw [hfirst.written hsource, hsecond.written hother] at hrows
    have htokens := (Token.tells_row.append_same ['\n']).map_eq_of_flatMap (by simp) hrows
    simpa using htokens

/-- The setting of a command that is asked for the tokens of a file -/
def listOn (path : String) (content : List UInt8) : Setting :=
  { callOn path content with arguments := ["--tokens", path] }

/-- Two files that differ behind the mark only are listed in the same way, an illegal quotation mark
and the end included, and so they have the same tokens. -/
theorem lists_tell_tokens_hidden :
    (listOn "a" (encode "x\n\"\x00y")).ListsPlainly "a" ∧
      (listOn "b" (encode "x\n\"\x00")).ListsPlainly "b" ∧
      (run (listOn "a" (encode "x\n\"\x00y"))).written .output =
        "   1:1   IDENT     \"x\"\n   2:1   ILLEGAL   \"\\\"\"\n   2:2   EOF       \"\\0\"\n" ∧
      (run (listOn "b" (encode "x\n\"\x00"))).written .output =
        "   1:1   IDENT     \"x\"\n   2:1   ILLEGAL   \"\\\"\"\n   2:2   EOF       \"\\0\"\n" ∧
      tokens "x\n\"\x00y" = tokens "x\n\"\x00" := by
  have hfirst : (listOn "a" (encode "x\n\"\x00y")).ListsPlainly "a" :=
    ⟨{ mode := .list "a" }, by decide, rfl, rfl⟩
  have hsecond : (listOn "b" (encode "x\n\"\x00")).ListsPlainly "b" :=
    ⟨{ mode := .list "b" }, by decide, rfl, rfl⟩
  have hwritten : (run (listOn "a" (encode "x\n\"\x00y"))).written .output =
      "   1:1   IDENT     \"x\"\n   2:1   ILLEGAL   \"\\\"\"\n   2:2   EOF       \"\\0\"\n" := by
    decide +kernel
  have hagain : (run (listOn "b" (encode "x\n\"\x00"))).written .output =
      "   1:1   IDENT     \"x\"\n   2:1   ILLEGAL   \"\\\"\"\n   2:2   EOF       \"\\0\"\n" := by
    decide +kernel
  obtain ⟨-, -, -, hruns⟩ := lists_tell_tokens
  exact ⟨hfirst, hsecond, hwritten, hagain,
    hruns _ _ "a" "b" _ _ hfirst hsecond rfl rfl (hwritten.trans hagain.symm)⟩

end Command

/-! ## Transcripts -/

namespace Session

theorem text_prompt : (prompt false).text = ">> " := rfl

/-- A line that shows a token does not begin like a prompt, also where the token is the sign that
the prompt is made of. -/
theorem entry_append_ne_prompt (token : Token) (rest more : List Char) :
    (token.entry false).toList ++ rest ≠ (prompt false).text.toList ++ more := by
  have hlabel : ∀ kind ∈ Kind.all,
      2 ≤ (Text.padRight 9 kind.label).toList.length ∧
        (Text.padRight 9 kind.label).toList.take 2 ≠ ['>', '>'] := by
    decide +kernel
  obtain ⟨hlength, htake⟩ := hlabel token.kind token.kind.mem_all
  intro hcode
  -- the first two characters are those of the kind
  have hfront := congrArg (List.take 2) hcode
  rw [token.entry_plain, String.toList_append, String.toList_append, List.append_assoc,
    List.append_assoc, List.take_append_of_le_length hlength] at hfront
  exact htake hfront

/-- The tokens of a line, with the prompt for the next line behind them -/
def entriesPrompt (row : List Token) : List Char :=
  (row.flatMap fun token => (token.entry false).toList ++ ['\n']) ++ (prompt false).text.toList

theorem tells_entriesPrompt : Tells (List.map Token.content) entriesPrompt := by
  apply (Token.tells_entry.append_same ['\n']).terminated
  intro token rest more
  simpa using entry_append_ne_prompt token ('\n' :: rest) more

theorem entriesPrompt_append_ne (row : List Token) (rest more : List Char) :
    entriesPrompt row ++ rest ≠ ['\n'] ++ more := by
  intro hcode
  cases row with
  | nil => simp [entriesPrompt, text_prompt] at hcode
  | cons token row =>
    -- a line that shows a token begins with a character that is graphic
    obtain ⟨c, cs, hentry⟩ := List.exists_cons_of_ne_nil
      (show (token.entry false).toList ≠ [] by simp [token.entry_plain])
    have hgraphic : ' ' ≤ c := token.graphic_entry c (hentry ▸ List.mem_cons_self)
    simp only [entriesPrompt, List.flatMap_cons, hentry, List.cons_append] at hcode
    rw [(List.cons.inj hcode).1] at hgraphic
    exact absurd hgraphic (by decide)

/-- Rows of tokens with a prompt in front of each and of the end are rows with a prompt behind each,
and one in front of all of them. -/
theorem toList_listing (rows : List (List Token)) :
    (listing false rows).toList =
      (prompt false).text.toList ++ (rows.flatMap entriesPrompt ++ ['\n']) := by
  induction rows with
  | nil => simp [listing]
  | cons row rows ih =>
    rw [listing_cons, String.toList_append, String.toList_append, ih]
    simp [entriesPrompt, entries, String.toList_join, List.flatMap_def, Function.comp_def]

/-- Rows of tokens that are listed can be read back. -/
theorem contents_of_listing {rows others : List (List Token)}
    (h : listing false rows = listing false others) :
    rows.map (List.map Token.content) = others.map (List.map Token.content) := by
  have hcode := congrArg String.toList h
  rw [toList_listing, toList_listing] at hcode
  exact (tells_entriesPrompt.terminated entriesPrompt_append_ne).view_eq
    (List.append_cancel_left hcode)

/-- A session that is given a text lists the tokens of its lines. -/
theorem output_transcript (coloured : Bool) {input : List UInt8} (h : (decode input).isSome) :
    (transcript coloured input).whole.output = encode (listing coloured (answeredRows input)) := by
  rw [output_whole, chunks_transcript, if_pos h, flatMap_bytes, List.map_append, String.join_append,
    text_rowChunks]
  rfl

end Session

/-- The transcript of a session tells what was entered. A prompt is never mistaken for a token, and
two inputs with the same transcript have as many lines, and on each line tokens of the same kinds
and texts. -/
theorem session_tells_tokens :
    (∀ (token : Token) (rest more : String),
      (Session.prompt false).text ++ rest ≠ token.entry false ++ more) ∧
      ∀ first second : List UInt8, (decode first).isSome → (decode second).isSome →
        (Session.transcript false first).whole.output =
            (Session.transcript false second).whole.output →
          (lines first).length = (lines second).length ∧
            ∀ (k : Nat) (line other : List UInt8),
              (lines first)[k]? = some line → (lines second)[k]? = some other →
                ∃ text more, decode line = some text ∧ decode other = some more ∧
                  (tokens text).dropLast.map Token.content =
                    (tokens more).dropLast.map Token.content := by
  refine ⟨fun token rest more hsame => ?_, fun first second hfirst hsecond houtput => ?_⟩
  · have hcode := congrArg String.toList hsame
    simp only [String.toList_append] at hcode
    exact Session.entry_append_ne_prompt token _ _ hcode.symm
  · rw [Session.output_transcript false hfirst, Session.output_transcript false hsecond] at houtput
    have hrows := Session.contents_of_listing (encode_injective houtput)
    simp only [Session.answeredRows, lines_readable_of_isSome hfirst,
      lines_readable_of_isSome hsecond, List.map_map] at hrows
    -- what the transcripts tell are the lists of rows, of which there is one for each line
    refine ⟨by simpa using congrArg List.length hrows, fun k line other hline hother => ?_⟩
    obtain ⟨text, htext⟩ := Option.isSome_iff_exists.1
      ((isSome_decode_iff first).1 hfirst line (List.mem_of_getElem? hline))
    obtain ⟨more, hmore⟩ := Option.isSome_iff_exists.1
      ((isSome_decode_iff second).1 hsecond other (List.mem_of_getElem? hother))
    have hrow := congrArg (·[k]?) hrows
    simp only [List.getElem?_map, hline, hother, Option.map_some, Function.comp_apply, htext, hmore,
      Option.getD_some] at hrow
    exact ⟨text, more, htext, hmore, Option.some.inj hrow⟩

/-- Two inputs differ in their blanks only, with the sign of the prompt behind a prompt and an empty
line between two prompts; their lines say the same, for instance the first ones. -/
theorem session_tells_tokens_blanks :
    (decode (encode "a >b\n\nc")).isSome ∧ (decode (encode " a\t> b\n \r\nc\n")).isSome ∧
      (Session.transcript false (encode "a >b\n\nc")).whole.output =
        encode (">> IDENT     \"a\"\n>         \">\"\nIDENT     \"b\"\n" ++
          ">> >> IDENT     \"c\"\n>> \n") ∧
      (Session.transcript false (encode " a\t> b\n \r\nc\n")).whole.output =
        encode (">> IDENT     \"a\"\n>         \">\"\nIDENT     \"b\"\n" ++
          ">> >> IDENT     \"c\"\n>> \n") ∧
      (lines (encode "a >b\n\nc")).length = (lines (encode " a\t> b\n \r\nc\n")).length ∧
      (tokens "a >b\n").dropLast.map Token.content =
        (tokens " a\t> b\n").dropLast.map Token.content := by
  have hdecodes (text : String) : (decode (encode text)).isSome := by rw [decode_encode]; rfl
  have hfirst : (Session.transcript false (encode "a >b\n\nc")).whole.output =
      encode (">> IDENT     \"a\"\n>         \">\"\nIDENT     \"b\"\n" ++
        ">> >> IDENT     \"c\"\n>> \n") := by
    decide +kernel
  have hsecond : (Session.transcript false (encode " a\t> b\n \r\nc\n")).whole.output =
      encode (">> IDENT     \"a\"\n>         \">\"\nIDENT     \"b\"\n" ++
        ">> >> IDENT     \"c\"\n>> \n") := by
    decide +kernel
  have hline : (lines (encode "a >b\n\nc"))[0]? = some (encode "a >b\n") := by decide +kernel
  have hother : (lines (encode " a\t> b\n \r\nc\n"))[0]? = some (encode " a\t> b\n") := by
    decide +kernel
  obtain ⟨hlength, hlines⟩ := session_tells_tokens.2 (encode "a >b\n\nc")
    (encode " a\t> b\n \r\nc\n") (hdecodes _) (hdecodes _) (hfirst.trans hsecond.symm)
  obtain ⟨text, more, htext, hmore, hcontents⟩ := hlines 0 _ _ hline hother
  rw [decode_encode] at htext hmore
  obtain rfl := Option.some.inj htext
  obtain rfl := Option.some.inj hmore
  exact ⟨hdecodes _, hdecodes _, hfirst, hsecond, hlength, hcontents⟩

end Macaque
