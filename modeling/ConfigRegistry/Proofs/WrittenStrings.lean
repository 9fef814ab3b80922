import ConfigRegistry.Proofs.DocumentSeams
import ConfigRegistry.Proofs.JsonLiterals

/-!
# Strings in the texts of values

The references of a string are looked for in the text of the value that holds it, where the
string is escaped and other texts precede it. Braces are not escaped, so the references of the
string stand in the text as they are written (`Json.written`). They are found there unless an
earlier opening swallows the first of them (`Reached`), which does not happen when all strings
and keys close what they open (`Json.Value.Closes`).
-/

namespace ConfigRegistry

open Bytes Template

/-! ## Characters in a literal -/

namespace Json

/-- A character as it stands in a string literal. -/
def escapeChar (c : Char) : List Char :=
  if c.toNat < 0x80 then (escape (UInt8.ofNat c.toNat)).map fun b => Char.ofNat b.toNat else [c]

/-- A text as it stands in a string literal. -/
def written (text : List Char) : List Char := text.flatMap escapeChar

/-- A character that stands for itself in a string literal. -/
def Bare (c : Char) : Prop := c ≠ '"' ∧ c ≠ '\\' ∧ 0x20 ≤ c.toNat

instance (c : Char) : Decidable (Bare c) := inferInstanceAs (Decidable (_ ∧ _))

/-- What holds of all ASCII characters holds of every character below U+0080. -/
theorem of_ascii {P : Char → Prop} (h : ∀ i : Fin 0x80, P (Char.ofNat i.val)) {c : Char}
    (hc : c.toNat < 0x80) : P c := by
  have hchar := h ⟨c.toNat, hc⟩
  rwa [Char.ofNat_toNat] at hchar

theorem escapeChar_bare {c : Char} (hc : Bare c) : escapeChar c = [c] := by
  by_cases hlow : c.toNat < 0x80
  · exact of_ascii (P := fun c => Bare c → escapeChar c = [c]) (by decide) hlow hc
  · exact if_neg hlow

theorem written_bare {text : List Char} (h : ∀ c ∈ text, Bare c) : written text = text :=
  flatMap_self fun c hc => escapeChar_bare (h c hc)

/-- A byte from 0x80 on is not escaped. -/
theorem escape_high {b : UInt8} (hb : ¬ b < 0x80) : escape b = [b] := by
  have hlow : ∀ k : UInt8, k < 0x80 → b ≠ k := fun k hk heq => hb (heq ▸ hk)
  have hcontrol : ¬ b < 0x20 := fun h => hb (UInt8.lt_trans h (by decide))
  unfold escape
  simp [hlow 0x22 (by decide), hlow 0x5C (by decide), hlow 0x08 (by decide), hlow 0x09 (by decide),
    hlow 0x0A (by decide), hlow 0x0C (by decide), hlow 0x0D (by decide), hcontrol]

theorem encode_escapeChar (c : Char) :
    encode (escapeChar c) = (String.utf8EncodeChar c).flatMap escape := by
  by_cases hlow : c.toNat < 0x80
  · exact of_ascii (P := fun c => encode (escapeChar c) = (String.utf8EncodeChar c).flatMap escape)
      (by decide) hlow
  · have hhigh : ∀ b ∈ String.utf8EncodeChar c, escape b = [b] := by
      intro b hb
      refine escape_high fun h => hlow ?_
      have hval : c.toNat = b.toNat := (utf8EncodeChar_of_mem h hb).1
      rw [hval]
      exact UInt8.lt_iff_toNat_lt.mp h
    rw [escapeChar, if_neg hlow, flatMap_self hhigh]
    exact List.flatMap_singleton _ _

/-- The escaped bytes of a text are those of the escaped text. -/
theorem escape_encode (text : List Char) : (encode text).flatMap escape = encode (written text) := by
  induction text with
  | nil => rfl
  | cons c text ih =>
    have hwritten : written (c :: text) = escapeChar c ++ written text := rfl
    have hencode : encode (c :: text) = String.utf8EncodeChar c ++ encode text := rfl
    rw [hencode, List.flatMap_append, ih, hwritten, encode_append, encode_escapeChar]

theorem quote_byte : String.utf8EncodeChar '"' = [0x22] := by decide

/-- The characters of a string literal. -/
theorem writeString_encode (text : String) :
    writeString text = encode ('"' :: (written text.toList ++ ['"'])) := by
  have htext : ofText text = encode text.toList := ofText_toList text
  have hquote : encode ['"'] = [0x22] := by simp [encode, quote_byte]
  have hopen : encode ('"' :: (written text.toList ++ ['"'])) =
      encode ['"'] ++ encode (written text.toList ++ ['"']) := encode_append ['"'] _
  rw [hopen, encode_append, hquote, writeString, htext, escape_encode]
  rfl

/-- A brace stands in a literal where it stands in the text. -/
theorem stands_escaped {c : Char} (hc : c = '\x7b' ∨ c = '\x7d') : Stands escapeChar c c where
  single := by rcases hc with rfl | rfl <;> decide
  only := by
    intro d hd
    by_cases hlow : d.toNat < 0x80
    · have hascii : ∀ i : Fin 0x80, ∀ c : Char, c = '\x7b' ∨ c = '\x7d' →
          c ∈ escapeChar (Char.ofNat i.val) → Char.ofNat i.val = c := by
        rintro i c (rfl | rfl) <;> revert i <;> decide
      exact of_ascii (P := fun d => ∀ c : Char, c = '\x7b' ∨ c = '\x7d' → c ∈ escapeChar d → d = c)
        hascii hlow c hc hd
    · rw [escapeChar, if_neg hlow] at hd
      exact (List.mem_singleton.mp hd).symm
  nonempty := by
    intro d
    by_cases hlow : d.toNat < 0x80
    · exact of_ascii (P := fun d => escapeChar d ≠ []) (by decide) hlow
    · rw [escapeChar, if_neg hlow]
      exact List.cons_ne_nil _ _

/-- The references of a text are found in its literal as they are written there. -/
theorem scanned_written {text tail : List Char} {refs : List (List Char × List Char)}
    (h : Scanned opening closing text refs tail) :
    Scanned opening closing (written text) (refs.map (Prod.map written written)) (written tail) :=
  h.spelled (stands_escaped (.inl rfl)) (stands_escaped (.inr rfl))

end Json

/-! ## Texts inside texts -/

namespace Template

variable {lead text more tail tail' : List Char} {names : List String}
  {refs refs' : List (List Char × List Char)}

/-- The names of a document and what is left of it are those of its scan. -/
theorem names_of_scanned (h : Scanned opening closing text refs tail)
    (hnames : variableNames (encode text) = .ok names) :
    ¬ opening <:+: tail ∧ names = (refs.filterMap fun ref => nameOf? ref.2).eraseDups := by
  rw [variableNames_encode h] at hnames
  by_cases hopens : opening <:+: tail
  · obtain ⟨before, body, hopened⟩ := exists_parted hopens
    rw [scan_of_unclosed hopened (h.tail_stops _ _ hopened)] at hnames
    cases hnames
  · rw [scan_of_unopened hopens] at hnames
    exact ⟨hopens, (Except.ok.inj hnames).symm⟩

/-- A text that is scanned may go on. -/
theorem Scanned.goes_on (h : Scanned opening closing text refs tail) (more : List Char) :
    ∃ refs' tail', Scanned opening closing (text ++ more) (refs ++ refs') tail' := by
  obtain ⟨refs', tail', h'⟩ := exists_refs (tail ++ more)
  exact ⟨refs', tail', h.append h'⟩

/-- Behind a text in which nothing opens the insides of references are found as they are. -/
theorem Scanned.prepend (h : Scanned opening closing text refs tail) (ha : Apart opening lead text) :
    ∃ refs' tail', Scanned opening closing (lead ++ text) refs' tail' ∧
      refs'.map Prod.snd = refs.map Prod.snd := by
  cases h with
  | stops hnone =>
    refine ⟨[], lead ++ text, .stops fun before body hopened hcloses => ?_, rfl⟩
    obtain ⟨before', body', hparted⟩ := exists_parted (ha.occurs hopened.occurs)
    obtain ⟨-, rfl⟩ := hopened.unique (hparted.prepend ha)
    exact hnone _ _ hparted hcloses
  | closes hopened hclosed hrest => exact ⟨_, _, .closes (hopened.prepend ha) hclosed hrest, rfl⟩

/-- What ends a text ends what a scan leaves of it. -/
theorem Scanned.last (h : Scanned opening closing lead refs' tail') {c : Char}
    (hc : tail'.getLast? = some c) : lead.getLast? = some c := by
  rw [h.whole, List.getLast?_append, hc]
  rfl

/-- Behind a text that closes what it opens all references are found. -/
theorem Scanned.behind_closed (hl : Scanned opening closing lead refs' tail')
    (hclosed : ¬ opening <:+: tail') (hlast : lead.getLast? ≠ some '\x7b')
    (h : Scanned opening closing text refs tail) :
    ∃ found rest, Scanned opening closing (lead ++ text) found rest ∧
      ∀ ref ∈ refs, ref.2 ∈ found.map Prod.snd := by
  have hapart : Apart opening tail' text := apart_pair hclosed fun ⟨hc, _⟩ => hlast (hl.last hc)
  obtain ⟨found, rest, hfound, hinsides⟩ := h.prepend hapart
  refine ⟨_, rest, hl.append hfound, fun ref href => ?_⟩
  rw [List.map_append, hinsides]
  exact List.mem_append_right _ (List.mem_map_of_mem href)

/-- The first reference of a text with a closing pair before it: the pair is the first of the text, and the
reference comes behind it. -/
theorem Parted.late {before body inner rest : List Char} (hopened : Parted opening text before body)
    (hcloses : closing <:+: before) (hclosed : Parted closing body inner rest)
    (h : Scanned opening closing rest refs tail) :
    ∃ u v before', Parted closing text u v ∧
      Scanned opening closing v ((before', inner) :: refs) tail := by
  obtain ⟨u, before', hparted⟩ := exists_parted hcloses
  have htext : text = before ++ (opening ++ body) := by rw [hopened.whole, List.append_assoc]
  refine ⟨u, before' ++ (opening ++ body), before', htext ▸ hparted.append _, .closes ?_ hclosed h⟩
  refine ⟨by rw [List.append_assoc], fun x y hxy => ?_⟩
  have hle := hopened.leftmost (u ++ closing ++ x) y (by rw [htext, hparted.whole]; simp [hxy])
  rw [hparted.whole] at hle
  simpa using hle

/-- The first reference of a text without a closing pair before it has the first closing pair of the text. -/
theorem Parted.past_opening {before body inner rest : List Char} (hopened : Parted opening text before body)
    (hcloses : ¬ closing <:+: before) (hclosed : Parted closing body inner rest) :
    Parted closing text (before ++ opening ++ inner) rest := by
  have hseam : Apart closing before opening := apart_pair hcloses fun ⟨_, hc⟩ => nomatch hc
  have hapart : Apart closing (before ++ opening) body := by
    refine apart_pair (fun h => absurd (hseam.occurs h) (by decide)) fun ⟨hc, _⟩ => ?_
    rw [List.getLast?_append] at hc
    exact absurd hc (by simp [opening])
  have hparted := hclosed.prepend hapart
  rwa [← hopened.whole] at hparted

/-- Behind an opening that is not closed yet the first closing pair closes it, and references are found
from there on. -/
theorem Scanned.behind_pending (hl : Scanned opening closing lead refs' tail')
    (hopens : opening <:+: tail') (hlast : lead.getLast? ≠ some '\x7d') {u v : List Char}
    (hclosed : Parted closing text u v) (h : Scanned opening closing v refs tail) :
    ∃ found, Scanned opening closing (lead ++ text) found tail ∧
      ∀ ref ∈ refs, ref.2 ∈ found.map Prod.snd := by
  obtain ⟨before, body, hopened⟩ := exists_parted hopens
  have hapart : Apart closing body text := by
    refine apart_pair (hl.tail_stops _ _ hopened) fun ⟨hc, _⟩ => hlast (hl.last ?_)
    rw [hopened.whole, List.getLast?_append, hc]
    rfl
  refine ⟨_, hl.append (.closes (hopened.append text) (hclosed.prepend hapart) h), fun ref href => ?_⟩
  rw [List.map_append, List.map_cons]
  exact List.mem_append_right _ (List.mem_cons_of_mem _ (List.mem_map_of_mem href))

/-- Behind an opening that is not closed yet all references but the first are found, and the first as well
if a closing pair comes before it. -/
theorem Scanned.behind_opened (hl : Scanned opening closing lead refs' tail')
    (hopens : opening <:+: tail') (hlast : lead.getLast? ≠ some '\x7d')
    (h : Scanned opening closing text refs tail) :
    ∃ found rest, Scanned opening closing (lead ++ text) found rest ∧
      (∀ ref ∈ refs.tail, ref.2 ∈ found.map Prod.snd) ∧
      ∀ first ∈ refs.head?, closing <:+: first.1 → first.2 ∈ found.map Prod.snd := by
  cases h with
  | stops =>
    obtain ⟨found, rest, hfound⟩ := exists_refs (lead ++ text)
    exact ⟨found, rest, hfound, nofun, nofun⟩
  | @closes _ before body inner _ _ refs hopened hclosed hrest =>
    by_cases hcloses : closing <:+: before
    · obtain ⟨u, v, before', hparted, hscanned⟩ := hopened.late hcloses hclosed hrest
      obtain ⟨found, hfound, hall⟩ := hl.behind_pending hopens hlast hparted hscanned
      refine ⟨found, _, hfound, fun ref href => hall ref (List.mem_cons_of_mem _ href), ?_⟩
      rintro first ⟨⟩ -
      exact hall (before', inner) List.mem_cons_self
    · have hparted := hopened.past_opening hcloses hclosed
      obtain ⟨found, hfound, hall⟩ := hl.behind_pending hopens hlast hparted hrest
      refine ⟨found, _, hfound, hall, ?_⟩
      rintro first ⟨⟩ h
      exact absurd h hcloses

/-- A document that is a text and closes what it opens. -/
def Closed (document : Bytes) : Prop := ∃ names, variableNames document = .ok names

/-- A reference of a string is reached in a text with these bytes before the string: they close what they
open, or what they leave open is closed before the reference. -/
def Reached (before : Bytes) (refs : List (List Char × List Char)) (ref : List Char × List Char) : Prop :=
  ref ∈ refs ∧ (Closed before ∨ ref ∈ refs.tail ∨
    ∃ first ∈ refs.head?, closing <:+: first.1)

/-- Where the literal of a string stands in a text. -/
theorem text_of_literal {document before after : Bytes} {string : String}
    (hdocument : document = before ++ Json.writeString string ++ after)
    (hnames : variableNames document = .ok names) :
    ∃ lead more, before ++ [0x22] = encode lead ∧ lead.getLast? = some '"' ∧
      document = encode (lead ++ (Json.written string.toList ++ more)) := by
  obtain ⟨text, rfl⟩ : ∃ text, document = encode text := by
    cases htext : toText? document with
    | none =>
      rw [variableNames, htext] at hnames
      cases hnames
    | some text => exact ⟨text.toList, toText?_eq_some.mp htext⟩
  rw [Json.writeString_encode, List.append_assoc] at hdocument
  obtain ⟨start, rest, rfl, rfl, hrest⟩ : ∃ start rest, text = start ++ '"' :: rest ∧ encode start = before ∧
      encode rest = encode (Json.written string.toList ++ ['"']) ++ after := by
    refine encode_parts (b := 0x22) (by decide) Json.quote_byte (hdocument.trans ?_)
    rw [encode, List.flatMap_cons, Json.quote_byte]
    rfl
  obtain ⟨more, rfl, -⟩ := encode_prefix hrest
  refine ⟨start ++ ['"'], '"' :: more, ?_, List.getLast?_concat, by simp⟩
  rw [encode_append]
  simp [encode, Json.quote_byte]

/-- A reference that is reached is found behind the quote, as it is written. -/
theorem Reached.found {before : Bytes} {ref : List Char × List Char} (hr : Reached before refs ref)
    (hbefore : before ++ [0x22] = encode lead) (hlast : lead.getLast? = some '"')
    (h : Scanned opening closing text refs tail) (more : List Char) :
    ∃ found rest, Scanned opening closing (lead ++ (Json.written text ++ more)) found rest ∧
      Json.written ref.2 ∈ found.map Prod.snd := by
  obtain ⟨refs', tail', hl⟩ := exists_refs lead
  obtain ⟨others, left, hwritten⟩ := (Json.scanned_written h).goes_on more
  obtain ⟨href, hr⟩ := hr
  by_cases hopens : opening <:+: tail'
  case neg =>
    obtain ⟨found, rest, hfound, hall⟩ := hl.behind_closed hopens (by rw [hlast]; decide) hwritten
    exact ⟨found, rest, hfound, hall _ (List.mem_append_left _ (List.mem_map_of_mem href))⟩
  obtain ⟨found, rest, hfound, hothers, hfirst⟩ := hl.behind_opened hopens (by rw [hlast]; decide) hwritten
  refine ⟨found, rest, hfound, ?_⟩
  rcases hr with ⟨names, hclosed⟩ | hr
  · -- the quote opens nothing either
    have hempty : variableNames [0x22] = .ok [] := by decide +kernel
    have hquote : variableNames (encode lead) = .ok (names ++ ([] : List String).filter (· ∉ names)) := by
      rw [← hbefore, variableNames_append hclosed (fun h => absurd h.2 (by decide)), hempty]
    exact absurd hopens (names_of_scanned hl hquote).1
  cases refs with
  | nil => cases href
  | cons first refs =>
    have htail : ∀ other ∈ refs, Json.written other.2 ∈ found.map Prod.snd := fun other ho =>
      hothers (other.map Json.written Json.written) (List.mem_append_left _ (List.mem_map_of_mem ho))
    rcases hr with hr | ⟨_, ⟨⟩, hcloses⟩
    · exact htail ref hr
    · rcases List.mem_cons.mp href with rfl | ho
      · exact hfirst _ rfl ((Json.stands_escaped (.inr rfl)).occurs.mpr hcloses)
      · exact htail ref ho

/-- What a reference of a string names as it is written is found in every text with the literal of the
string, if the reference is reached. -/
theorem found_in_literal {document before after : Bytes} {string name : String} {ref : List Char × List Char}
    (hdocument : document = before ++ Json.writeString string ++ after)
    (hnames : variableNames document = .ok names)
    (h : Scanned opening closing string.toList refs tail) (hr : Reached before refs ref)
    (hname : nameOf? (Json.written ref.2) = some name) : name ∈ names := by
  obtain ⟨lead, more, hbefore, hlast, rfl⟩ := text_of_literal hdocument hnames
  obtain ⟨found, rest, hfound, href⟩ := hr.found hbefore hlast h more
  obtain ⟨ref', href', hinside⟩ := List.mem_map.mp href
  rw [(names_of_scanned hfound hnames).2, List.mem_eraseDups]
  exact List.mem_filterMap.mpr ⟨ref', href', hinside ▸ hname⟩

end Template

/-! ## Strings of values -/

namespace Json

/-- A value occurs in another one. -/
inductive Value.Within (u : Value) : Value → Prop where
  | self : Within u u
  | item {items : List Value} {v : Value} (hv : v ∈ items) (h : Within u v) : Within u (.array items)
  | member {members : List (String × Value)} {key : String} {v : Value} (hv : (key, v) ∈ members)
      (h : Within u v) : Within u (.object members)

/-- All strings and keys of a value close what they open. -/
structure Value.Closes (v : Value) : Prop where
  strings : ∀ text, Value.Within (.string text) v → Closed (ofText text)
  keys : ∀ members, Value.Within (.object members) v → ∀ m ∈ members, Closed (ofText m.1)

variable {u v : Value} {items : List Value} {members : List (String × Value)} {key text : String}

theorem Value.Closes.item (h : (Value.array items).Closes) (hv : v ∈ items) : v.Closes where
  strings := fun text ht => h.strings text (.item hv ht)
  keys := fun members hm => h.keys members (.item hv hm)

theorem Value.Closes.member (h : (Value.object members).Closes) (hv : (key, v) ∈ members) : v.Closes where
  strings := fun text ht => h.strings text (.member hv ht)
  keys := fun members hm => h.keys members (.member hv hm)

/-- Bytes that close what they open, and open nothing together with what follows them. -/
structure Quiet (b : Bytes) : Prop where
  closes : Closed b
  last : b.getLast? ≠ some 0x7B

theorem closed_append {a b : Bytes} (ha : Closed a) (hb : Closed b)
    (hseam : ¬ (a.getLast? = some 0x7B ∧ b.head? = some 0x7B)) : Closed (a ++ b) := by
  obtain ⟨names, ha⟩ := ha
  obtain ⟨more, hb⟩ := hb
  exact ⟨_, by rw [variableNames_append ha hseam, hb]⟩

theorem Quiet.append {a b : Bytes} (ha : Quiet a) (hb : Quiet b) : Quiet (a ++ b) where
  closes := closed_append ha.closes hb.closes fun h => ha.last h.1
  last := by
    rw [List.getLast?_append]
    cases hlast : b.getLast? with
    | none => exact ha.last
    | some x => exact fun h => hb.last (hlast.trans h)

/-- Bytes below the opening brace are quiet. -/
theorem quiet_low {b : Bytes} (h : ∀ x ∈ b, x < 0x7B) : Quiet b := by
  have hbyte : ∀ i : Fin 0x7B, variableNames [UInt8.ofNat i.val] = .ok [] := by decide +kernel
  induction b with
  | nil => exact ⟨⟨[], by decide +kernel⟩, nofun⟩
  | cons x b ih =>
    have hx := UInt8.lt_iff_toNat_lt.mp (h x List.mem_cons_self)
    have hone := hbyte ⟨x.toNat, hx⟩
    rw [UInt8.ofNat_toNat] at hone
    refine Quiet.append (a := [x]) ⟨⟨_, hone⟩, fun hlast => ?_⟩ (ih fun y hy => h y (List.mem_cons_of_mem x hy))
    obtain rfl : x = 0x7B := Option.some.inj hlast
    exact absurd hx (by decide)

/-- For bytes that are written out. -/
theorem quiet_word {b : Bytes} (h : b.all (· < 0x7B) = true) : Quiet b :=
  quiet_low fun x hx => of_decide_eq_true (List.all_eq_true.mp h x hx)

theorem quiet_braces {b : Bytes} (hb : b = [0x7D] ∨ b = [0x7B, 0x7D]) : Quiet b := by
  rcases hb with rfl | rfl <;> exact ⟨⟨[], by decide +kernel⟩, by decide⟩

theorem closed_string (h : Closed (ofText text)) : Closed (writeString text) := by
  have hquote : Closed [0x22] := ⟨[], by decide +kernel⟩
  obtain ⟨names, hnames⟩ := h
  obtain ⟨refs, tail, hscan⟩ := exists_refs text.toList
  have htext : ofText text = encode text.toList := ofText_toList text
  have hunopened := (names_of_scanned hscan (htext ▸ hnames)).1
  have hescaped : ¬ opening <:+: written tail := mt (stands_escaped (.inl rfl)).occurs.mp hunopened
  have hwritten : Closed (encode (written text.toList)) :=
    ⟨_, by rw [variableNames_encode (scanned_written hscan), scan_of_unopened hescaped]⟩
  have hstart := closed_append hquote hwritten fun h => absurd h.1 (by decide)
  rw [← escape_encode, ← htext] at hstart
  exact closed_append hstart hquote fun h => absurd h.2 (by decide)

theorem writeString_head (text : String) : (writeString text).head? = some 0x22 := rfl

theorem writeString_last (text : String) : (writeString text).getLast? = some 0x22 := by
  rw [writeString, ← List.cons_append, List.getLast?_concat]

theorem quiet_string (h : Closed (ofText text)) : Quiet (writeString text) :=
  ⟨closed_string h, by rw [writeString_last]; decide⟩

/-- A key, what is before it and the colon behind it. -/
theorem quiet_key {lead : UInt8} (hlead : lead = 0x7B ∨ lead = 0x2C) (h : Closed (ofText key)) :
    Quiet (lead :: (writeString key ++ [0x3A])) := by
  have hopen : Closed [lead] := by
    rcases hlead with rfl | rfl <;> exact ⟨[], by decide +kernel⟩
  have hkey : Quiet ([lead] ++ writeString key) := by
    refine ⟨closed_append hopen (closed_string h) ?_, ?_⟩
    · rw [writeString_head]
      exact fun h => absurd h.2 (by decide)
    · rw [List.getLast?_append, writeString_last, Option.some_or]
      decide
  exact hkey.append (b := [0x3A]) (quiet_word rfl)

theorem digits_low (n : Nat) : ∀ x ∈ Decimal.digits n, x < 0x7B := by
  intro x hx
  have hdigit := Decimal.isDigit_of_mem_digits n x hx
  simp only [Decimal.isDigit, Bool.and_eq_true, decide_eq_true_eq] at hdigit
  exact UInt8.lt_of_le_of_lt hdigit.2 (by decide)

theorem layout_low (s : Binary64.Shortest) : ∀ x ∈ layout s, x < 0x7B := by
  have hd := digits_low s.digits
  have hzeros : ∀ n, ∀ x ∈ zeros n, x < 0x7B := by
    intro n x hx
    rw [List.eq_of_mem_replicate hx]
    decide
  have hpoint : ∀ k, ∀ x ∈ (Decimal.digits s.digits).take k ++ 0x2E :: (Decimal.digits s.digits).drop k,
      x < 0x7B := fun k =>
    List.forall_mem_append.mpr ⟨fun x hx => hd x (List.mem_of_mem_take hx),
      List.forall_mem_cons.mpr ⟨by decide, fun x hx => hd x (List.mem_of_mem_drop hx)⟩⟩
  unfold layout
  simp only
  split
  case isTrue =>
    exact List.forall_mem_append.mpr ⟨List.forall_mem_append.mpr ⟨hd, hzeros _⟩, by simp⟩
  case isFalse =>
    split
    case isTrue => exact hpoint _
    case isFalse =>
      split
      case isTrue =>
        exact List.forall_mem_cons.mpr ⟨by decide, List.forall_mem_cons.mpr
          ⟨by decide, List.forall_mem_append.mpr ⟨hzeros _, hd⟩⟩⟩
      case isFalse =>
        refine List.forall_mem_append.mpr ⟨?_, List.forall_mem_cons.mpr ⟨by decide,
          List.forall_mem_cons.mpr ⟨?_, digits_low _⟩⟩⟩
        · split
          · exact hd
          · exact hpoint 1
        · split <;> decide

/-- The bytes of a number are below the opening brace. -/
theorem writeNumber_low (n : Number) : ∀ x ∈ writeNumber n, x < 0x7B := by
  cases n with
  | natural n => exact digits_low _
  | negative n => exact List.forall_mem_cons.mpr ⟨by decide, digits_low _⟩
  | real x =>
    refine List.forall_mem_append.mpr ⟨?_, ?_⟩
    · split <;> simp
    · split
      · simp
      · exact layout_low _

theorem quiet_item {lead : UInt8} (hlead : lead < 0x7B) {b : Bytes} (hb : Quiet b) : Quiet (lead :: b) :=
  (quiet_low (b := [lead]) (by simpa using hlead)).append hb

mutual

/-- A value whose strings and keys close what they open is quiet. -/
theorem quiet_write : ∀ v : Value, v.Closes → Quiet v.write
  | .null, _ => quiet_word rfl
  | .bool true, _ => quiet_word rfl
  | .bool false, _ => quiet_word rfl
  | .number n, _ => quiet_low (writeNumber_low n)
  | .string s, h => quiet_string (h.strings s .self)
  | .array [], _ => quiet_word rfl
  | .array (v :: rest), h =>
    quiet_item (by decide) ((quiet_write v (h.item List.mem_cons_self)).append
      (quiet_moreItems rest fun u hu => h.item (List.mem_cons_of_mem v hu)))
  | .object [], _ => quiet_braces (.inr rfl)
  | .object ((k, v) :: rest), h => by
    have hkey := quiet_key (.inl rfl) (h.keys _ .self _ List.mem_cons_self)
    have hvalue := quiet_write v (h.member List.mem_cons_self)
    have hrest := quiet_moreMembers rest fun m hm =>
      ⟨h.keys _ .self m (List.mem_cons_of_mem _ hm), h.member (List.mem_cons_of_mem _ hm)⟩
    simpa [Value.write] using hkey.append (hvalue.append hrest)

theorem quiet_moreItems : ∀ items : List Value, (∀ v ∈ items, v.Closes) → Quiet (writeMoreItems items)
  | [], _ => quiet_word rfl
  | v :: rest, h =>
    quiet_item (by decide) ((quiet_write v (h v List.mem_cons_self)).append
      (quiet_moreItems rest fun u hu => h u (List.mem_cons_of_mem v hu)))

theorem quiet_moreMembers : ∀ members : List (String × Value),
    (∀ m ∈ members, Closed (ofText m.1) ∧ m.2.Closes) → Quiet (writeMoreMembers members)
  | [], _ => quiet_braces (.inl rfl)
  | (k, v) :: rest, h => by
    have hkey := quiet_key (.inr rfl) (h (k, v) List.mem_cons_self).1
    have hvalue := quiet_write v (h (k, v) List.mem_cons_self).2
    have hrest := quiet_moreMembers rest fun m hm => h m (List.mem_cons_of_mem _ hm)
    simpa [writeMoreMembers] using hkey.append (hvalue.append hrest)

end

/-- Where an item stands in the text of a list, whatever is before the first item. -/
theorem item_placed (lead : UInt8) (hlead : lead < 0x7B) {rest : List Value} (hv : v ∈ u :: rest) :
    ∃ before after, lead :: (u.write ++ writeMoreItems rest) = before ++ v.write ++ after ∧
      ((∀ v ∈ u :: rest, v.Closes) → Quiet before) := by
  induction rest generalizing lead u with
  | nil =>
    obtain rfl := List.mem_singleton.mp hv
    exact ⟨[lead], [0x5D], rfl, fun _ => quiet_low (by simpa using hlead)⟩
  | cons w rest ih =>
    rcases List.mem_cons.mp hv with rfl | hv
    · exact ⟨[lead], writeMoreItems (w :: rest), by simp, fun _ => quiet_low (by simpa using hlead)⟩
    obtain ⟨before, after, hwrite, hquiet⟩ := ih 0x2C (by decide) hv
    refine ⟨lead :: (u.write ++ before), after, ?_, fun h => ?_⟩
    · rw [writeMoreItems, hwrite]
      simp
    · have hfirst := quiet_write u (h u List.mem_cons_self)
      exact quiet_item hlead (hfirst.append (hquiet fun v hv => h v (List.mem_cons_of_mem u hv)))

/-- Where the value of a member stands in the text of an object, whatever is before the first key. -/
theorem member_placed (lead : UInt8) (hlead : lead = 0x7B ∨ lead = 0x2C) {k : String}
    {rest : List (String × Value)} (hv : (key, v) ∈ (k, u) :: rest) :
    ∃ before after,
      lead :: (writeString k ++ 0x3A :: (u.write ++ writeMoreMembers rest)) = before ++ v.write ++ after ∧
      ((∀ m ∈ (k, u) :: rest, Closed (ofText m.1) ∧ m.2.Closes) → Quiet before) := by
  induction rest generalizing lead k u with
  | nil =>
    obtain ⟨rfl, rfl⟩ := Prod.mk.inj (List.mem_singleton.mp hv)
    exact ⟨lead :: (writeString key ++ [0x3A]), [0x7D], by simp [writeMoreMembers],
      fun h => quiet_key hlead (h _ hv).1⟩
  | cons m rest ih =>
    obtain ⟨k', u'⟩ := m
    rcases List.mem_cons.mp hv with heq | hv
    · obtain ⟨rfl, rfl⟩ := Prod.mk.inj heq
      exact ⟨lead :: (writeString key ++ [0x3A]), writeMoreMembers ((k', u') :: rest), by simp,
        fun h => quiet_key hlead (h _ List.mem_cons_self).1⟩
    obtain ⟨before, after, hwrite, hquiet⟩ := ih 0x2C (.inr rfl) hv
    refine ⟨lead :: (writeString k ++ [0x3A]) ++ (u.write ++ before), after, ?_, fun h => ?_⟩
    · rw [writeMoreMembers, hwrite]
      simp
    · have hfirst := quiet_write u (h (k, u) List.mem_cons_self).2
      refine (quiet_key hlead (h (k, u) List.mem_cons_self).1).append (hfirst.append ?_)
      exact hquiet fun m hm => h m (List.mem_cons_of_mem _ hm)

/-- A string of a value stands in the value's text, behind bytes that are quiet if all strings and keys
close what they open. -/
theorem Value.Within.placed (h : Value.Within (.string text) v) :
    ∃ before after, v.write = before ++ writeString text ++ after ∧ (v.Closes → Quiet before) := by
  induction h with
  | self => exact ⟨[], [], by simp [Value.write], fun _ => quiet_low nofun⟩
  | @item items v hv _ ih =>
    obtain ⟨before, after, hwrite, hquiet⟩ := ih
    cases items with
    | nil => cases hv
    | cons u rest =>
      obtain ⟨lead, more, hlist, hlead⟩ := item_placed 0x5B (by decide) hv
      refine ⟨lead ++ before, after ++ more, ?_, fun h => ?_⟩
      · rw [Value.write, hlist, hwrite]
        simp
      · exact (hlead fun v hv => h.item hv).append (hquiet (h.item hv))
  | @member members key v hv _ ih =>
    obtain ⟨before, after, hwrite, hquiet⟩ := ih
    cases members with
    | nil => cases hv
    | cons m rest =>
      obtain ⟨k, u⟩ := m
      obtain ⟨lead, more, hobject, hlead⟩ := member_placed 0x7B (.inl rfl) hv
      refine ⟨lead ++ before, after ++ more, ?_, fun h => ?_⟩
      · rw [Value.write, hobject, hwrite]
        simp
      · exact (hlead fun m hm => ⟨h.keys _ .self m hm, h.member hm⟩).append (hquiet (h.member hv))

end Json

end ConfigRegistry
