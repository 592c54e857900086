import ElementGrammar.Proofs.Script.Plain
import ElementGrammar.Proofs.Xml.Tree

/-!
# Documents line by line

Dumps and reports are made of lines, and what a document says stands in them.  Texts are cut to
one line, and names are on one line because a tag is cut at spaces.  The value of an attribute
stands as it is, and a reference can put a line feed in it.

* `readBytes_lines` is that nothing else breaks a line.  A dump has single lines only, as many as
  there are elements and texts, exactly where the values of attributes are on one line each.
  Then the same is true of the report of any rule whose own messages are on one line, and an
  error inside it is indented as a whole.
* `lines_forged` is a document with a line feed in a value.  Its dump is that of a document with
  one more element.
-/

namespace ElementGrammar

open Text (OneLine)

/-- The values of all attributes, of the element and of those inside, are on one line each. -/
def Element.ValuesOneLine (e : Element) : Prop :=
  ∀ n ∈ e.preorder 0, ∀ a ∈ n.attrs, OneLine a.value

instance (e : Element) : Decidable e.ValuesOneLine :=
  inferInstanceAs (Decidable (∀ n ∈ e.preorder 0, ∀ a ∈ n.attrs, OneLine a.value))

namespace Xml

/-- In a tree that is read a node is plain where the values of its attributes are. -/
theorem plain_nodes_iff {bytes : List UInt8} {e : Element} (h : readBytes bytes = .ok e) :
    (∀ n ∈ e.preorder 0, n.Plain) ↔ e.ValuesOneLine := by
  have hnames := oneLine_names h
  constructor
  · intro hplain n hn a ha
    exact ((hplain n hn).attrs a ha).2
  · intro hvalues n hn
    obtain ⟨hname, hattrs⟩ := hnames n hn
    exact ⟨hname, fun a ha => ⟨hattrs a ha, hvalues n hn a ha⟩⟩

/-- Where the values are on one line, an error of a rule that is plainly spoken is plain. -/
theorem plain_error {bytes : List UInt8} {e : Element} (h : readBytes bytes = .ok e)
    (hvalues : e.ValuesOneLine) {α : Type} {rule : Rule α} (hrule : rule.PlainSpoken)
    {tracing : Tracing} {error : ParseError} (herror : (rule.run tracing e).outcome = .error error) :
    error.Plain := by
  have hplain : e.Plain := ((readBytes_proper h).plain_iff 0).mpr ((plain_nodes_iff h).mpr hvalues)
  exact (Rule.run_plain tracing hrule hplain).error error herror

/-- The values of attributes alone decide whether a tree that is read is shown line by line.
Where they are on one line each, the lines of a dump are those of the elements in document
order, each at its depth, and a report is shown on its lines, with those of each error inside
one after the other and as far in as the error is. -/
theorem readBytes_lines {bytes : List UInt8} {e : Element} (h : readBytes bytes = .ok e) :
    ((∀ line ∈ e.lines, OneLine line) ↔ e.ValuesOneLine) ∧
      (e.ValuesOneLine →
        Text.physicalLines e.dump = (e.preorder 0).flatMap Node.lines ∧
          ∀ {α : Type} (rule : Rule α) (tracing : Tracing) (error : ParseError),
            rule.PlainSpoken → (rule.run tracing e).outcome = .error error →
              (∀ line ∈ error.lines, OneLine line) ∧
                Text.physicalLines error.report = error.lines ∧
                  ∀ columns inner, ParseError.ShownAt columns inner error →
                    indentLines columns inner.lines <:+: Text.physicalLines error.report) := by
  have hproper := readBytes_proper h
  refine ⟨hproper.oneLine_lines_iff.trans (plain_nodes_iff h), fun hvalues => ?_⟩
  refine ⟨hproper.physicalLines_dump ((plain_nodes_iff h).mpr hvalues), ?_⟩
  intro α rule tracing error hrule herror
  have hplain := plain_error h hvalues hrule herror
  refine ⟨hplain.oneLine_lines, hplain.physicalLines_report, ?_⟩
  intro columns inner hinner
  rw [hplain.physicalLines_report]
  exact hinner.infix_lines

/-! ## A value on two lines -/

/-- An element with a line feed in the value of its attribute. -/
def forged : Element :=
  ⟨"a", [⟨"b", "1\n  - c"⟩], [], none⟩

/-- An element with another one inside. -/
def nested : Element :=
  ⟨"a", [⟨"b", "1"⟩], [⟨"c", [], [], none⟩], none⟩

/-- The tree that a single empty tag is read as. -/
theorem readBytes_forged : readBytes (ascii "<a b=\"1&#10;  - c\"/>") = .ok forged := by
  have htag : Tag.rawAttributes ⟨ascii "a", ascii " b=\"1&#10;  - c\""⟩ =
      [.ok ⟨ascii "b", ascii "1&#10;  - c"⟩] :=
    (attributesFrom_of_found rfl).trans (congrArg _ (attributesFrom_of_ended rfl))
  have hevents : Transcript.ofBytes (ascii "<a b=\"1&#10;  - c\"/>") =
      ⟨[⟨0, .emptyTag ⟨ascii "a", ascii " b=\"1&#10;  - c\""⟩⟩], none⟩ :=
    transcribe_of_event rfl (transcribe_of_ended rfl)
  have hattribute : RawAttribute.attribute? ⟨ascii "b", ascii "1&#10;  - c"⟩ =
      some ⟨"b", "1\n  - c"⟩ := by decide +kernel
  have hattributes : Tag.attributes? ⟨ascii "a", ascii " b=\"1&#10;  - c\""⟩ =
      some [⟨"b", "1\n  - c"⟩] := by
    rw [Tag.attributes?, htag, List.mapM_cons, List.mapM_nil]
    show Option.bind (RawAttribute.attribute? _) _ = _
    rw [hattribute]
    rfl
  have hopen : Frame.ofTag 0 ⟨ascii "a", ascii " b=\"1&#10;  - c\""⟩ =
      .ok ⟨"a", [⟨"b", "1\n  - c"⟩], [], none⟩ :=
    Frame.ofTag_eq_ok_iff.mpr ⟨"a", _, rfl, hattributes, by decide, rfl⟩
  rw [readBytes, hevents]
  simp only [Transcript.read, Reading.ofEvents, Reading.steps, Reading.step, Reading.emptyTag,
    Reading.initial, hopen]
  rfl

theorem readBytes_nested : readBytes (ascii "<a b=\"1\"><c/></a>") = .ok nested := by
  have htag : Tag.rawAttributes ⟨ascii "a", ascii " b=\"1\""⟩ = [.ok ⟨ascii "b", ascii "1"⟩] :=
    (attributesFrom_of_found rfl).trans (congrArg _ (attributesFrom_of_ended rfl))
  have hinner : Tag.rawAttributes ⟨ascii "c", []⟩ = [] := attributesFrom_of_ended rfl
  have hlast : transcribe 13 [ascii "a"] (ascii "</a>") = ⟨[⟨13, .endTag (ascii "a")⟩], none⟩ :=
    transcribe_of_event rfl (transcribe_of_ended rfl)
  have hlater : transcribe 9 [ascii "a"] (ascii "<c/></a>") =
      ⟨[⟨9, .emptyTag ⟨ascii "c", []⟩⟩, ⟨13, .endTag (ascii "a")⟩], none⟩ :=
    transcribe_of_event rfl hlast
  have hevents : Transcript.ofBytes (ascii "<a b=\"1\"><c/></a>") =
      ⟨[⟨0, .startTag ⟨ascii "a", ascii " b=\"1\""⟩⟩, ⟨9, .emptyTag ⟨ascii "c", []⟩⟩,
        ⟨13, .endTag (ascii "a")⟩], none⟩ :=
    transcribe_of_event rfl hlater
  have hopen : Frame.ofTag 0 ⟨ascii "a", ascii " b=\"1\""⟩ =
      .ok ⟨"a", [⟨"b", "1"⟩], [], none⟩ := by
    rw [Frame.ofTag, htag]
    rfl
  have hopenInner : Frame.ofTag 9 ⟨ascii "c", []⟩ = .ok ⟨"c", [], [], none⟩ := by
    rw [Frame.ofTag, hinner]
    rfl
  rw [readBytes, hevents]
  simp only [Transcript.read, Reading.ofEvents, Reading.steps, Reading.step, Reading.openTag,
    Reading.emptyTag, Reading.closeTag, Reading.initial, hopen, hopenInner]
  rfl

/-- A tag whose value breaks the line of its element, and the lines of an error.  Its dump is
that of a document with an element inside. -/
theorem lines_forged :
    readBytes (ascii "<a b=\"1&#10;  - c\"/>") = .ok forged ∧
      ¬ (∀ line ∈ forged.lines, OneLine line) ∧ forged.dump = nested.dump ∧
        (Rule.matchName "a").PlainSpoken ∧
          ∃ error, ((Rule.matchName "a").run .silent forged).outcome = .error error ∧
            ¬ ∀ line ∈ error.lines, OneLine line := by
  refine ⟨readBytes_forged, by decide +kernel, by decide +kernel, ?_, ?_⟩
  · exact Rule.plainSpoken_matchName (by decide)
  · exact ⟨.remainingItems forged [⟨"b", "1\n  - c"⟩] [] none, rfl, by decide +kernel⟩

/-- Asks for a child by its name. -/
def childD : Rule (Option Unit) :=
  .childOpt (.matchName "d")

/-- What is left of an element with a child of another name. -/
def leftOver : ParseError :=
  .remainingItems nested [⟨"b", "1"⟩]
    [⟨⟨"c", [], [], none⟩, [.other "Element name is not d"]⟩] none

theorem readBytes_lines_nested :
    nested.ValuesOneLine ∧ childD.PlainSpoken ∧
      (childD.run .silent nested).outcome = .error leftOver ∧
        Text.physicalLines nested.dump = ["- a @ b=1", "  - c"] ∧
          ["      Element name is not d"] <:+: Text.physicalLines leftOver.report := by
  have hvalues : nested.ValuesOneLine := by decide +kernel
  have hplain : childD.PlainSpoken :=
    Rule.plainSpoken_childOpt (Rule.plainSpoken_matchName (by decide))
  have hshown : ParseError.ShownAt 6 (.other "Element name is not d") leftOver :=
    .remainingItems List.mem_cons_self List.mem_cons_self (.self _)
  obtain ⟨hdump, hreport⟩ := (readBytes_lines readBytes_nested).2 hvalues
  have hinfix := (hreport childD .silent leftOver hplain rfl).2.2 6 _ hshown
  refine ⟨hvalues, hplain, rfl, hdump.trans (by decide +kernel), ?_⟩
  have hline : indentLines 6 (ParseError.other "Element name is not d").lines =
      ["      Element name is not d"] := by decide +kernel
  rw [← hline]
  exact hinfix

/-! ## Scripts -/

/-- The report of a script is shown on its lines, where what the script says is on one line
and the values of attributes are. -/
theorem physicalLines_script {bytes : List UInt8} {e : Element} (h : readBytes bytes = .ok e)
    (hvalues : e.ValuesOneLine) {library : Library} {script : Script} (hlibrary : library.Plain)
    (hscript : script.Plain) {tracing : Tracing} {error : ParseError}
    (herror : ((Script.rule library script).run tracing e).outcome = .error error) :
    Text.physicalLines error.report = error.lines :=
  (plain_error h hvalues (Script.plainSpoken_rule hlibrary hscript) herror).physicalLines_report

end Xml

end ElementGrammar
