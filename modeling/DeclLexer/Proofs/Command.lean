import DeclLexer.Proofs.Listing
import DeclLexer.Proofs.Text.Line

/-!
# Runs of the command

A run on a file that can be read depends on nothing but the bytes of the file and its name. It
succeeds when the bytes are a text that is accepted, and writes its listing, or how many lines that
has. Every other run fails with nothing on standard output, whether it was asked to be quiet or not.
-/

namespace DeclLexer

open Text

/-! ### The last name of a path -/

/-- The name stands behind the last slash of a path, and a file may have it. -/
structure IsLastName (path name : String) : Prop where
  exists_eq : ∃ above, path.toList = above ++ name.toList ∧ ∀ c ∈ above.getLast?, c = '/'
  notMem : '/' ∉ name.toList
  isSelf : isSelf name.toList = false
  isParent : isParent name.toList = false

section

variable {path name : String} {names : List (List Char)} {above last : List Char} {t : FileTree}
  {node node' : FileTree.Node} {bytes : ByteArray}

/-- The names of a path end with what stands behind its last slash. -/
lemma exists_pathNames_eq (hpath : path.toList = above ++ last)
    (habove : ∀ c ∈ above.getLast?, c = '/') (hlast : '/' ∉ last) :
    ∃ names, pathNames path = names ++ [last] := by
  rw [pathNames, hpath]
  rcases List.eq_nil_or_concat above with rfl | ⟨front, c, rfl⟩
  · exact ⟨[], List.splitOn_eq_singleton hlast⟩
  · obtain rfl : c = '/' := habove c (by simp)
    refine ⟨front.splitOn '/', ?_⟩
    rw [List.concat_eq_append, List.append_assoc, List.singleton_append,
      List.splitOn_append_cons_self, List.splitOn_eq_singleton hlast]

lemma lastName_of_pathNames (h : pathNames path = names ++ [last]) (hself : isSelf last = false)
    (hparent : isParent last = false) : lastName path = String.ofList last := by
  rw [lastName, h, List.filter_append, List.filter_cons_of_pos (by simp [hself]), List.filter_nil,
    List.getLast?_concat]
  simp [hparent]

/-- A file goes by the last name of its path. -/
lemma IsLastName.lastName_eq (h : IsLastName path name) : lastName path = name := by
  obtain ⟨above, hpath, habove⟩ := h.exists_eq
  obtain ⟨names, hnames⟩ := exists_pathNames_eq hpath habove h.notMem
  rw [lastName_of_pathNames hnames h.isSelf h.isParent, String.ofList_toList]

namespace FileTree

lemma exists_follow_eq (h : t.followAll (names ++ [last]) node = .ok node') :
    ∃ mid, t.follow last mid = .ok node' := by
  induction names generalizing node with
  | nil =>
    rw [List.nil_append, followAll] at h
    split at h
    · next mid hmid => exact ⟨node, hmid.trans h⟩
    · cases h
  | cons name names ih =>
    rw [List.cons_append, followAll] at h
    split at h
    · next mid hmid => exact ih h
    · cases h

/-- No file is reached by a name that leads to a directory. -/
lemma not_special_of_follow (h : t.follow last node = .ok (.file bytes)) :
    isSelf last = false ∧ isParent last = false := by
  cases node with
  | file contents => cases h
  | above =>
    rw [follow] at h
    split at h <;> cases h
  | directory names =>
    rw [follow] at h
    split at h
    · cases h
    next hself =>
    split at h
    · split at h <;> cases h
    next hparent => exact ⟨by simpa using hself, by simpa using hparent⟩

/-- The path to a file ends with a name that a file may have. -/
lemma isLastName_of_read (h : t.read path = .ok bytes) : IsLastName path (lastName path) := by
  obtain ⟨above, last, hpath, hstops, hrun⟩ := exists_last_run (· != '/') path.toList
  have habove : ∀ c ∈ above.getLast?, c = '/' := by
    intro c hc
    rw [← List.head?_reverse] at hc
    simpa using hstops c hc
  have hlast : '/' ∉ last := by
    intro hmem
    simpa using hrun _ hmem
  obtain ⟨names, hnames⟩ := exists_pathNames_eq hpath habove hlast
  have hfile : ∃ node, t.followAll (pathNames path) node = .ok (.file bytes) := by
    rw [read] at h
    split at h
    · next contents hfollow =>
      cases h
      exact ⟨_, hfollow⟩
    · cases h
    · cases h
  obtain ⟨node, hfollow⟩ := hfile
  rw [hnames] at hfollow
  obtain ⟨mid, hmid⟩ := exists_follow_eq hfollow
  obtain ⟨hself, hparent⟩ := not_special_of_follow hmid
  rw [lastName_of_pathNames hnames hself hparent]
  constructor
  all_goals rw [String.toList_ofList]
  · exact ⟨above, hpath, habove⟩
  · exact hlast
  · exact hself
  · exact hparent

end FileTree

end

/-! ### Texts as bytes -/

lemma fromUTF8?_eq_some_iff {bytes : ByteArray} {source : String} :
    String.fromUTF8? bytes = some source ↔ source.toUTF8 = bytes := by
  rw [String.fromUTF8?]
  constructor
  · intro h
    split at h
    · cases h
      rfl
    · cases h
  · rintro rfl
    exact dif_pos source.isValidUTF8

/-! ### Listings by lines -/

/-- The first and the last token are two. -/
lemma IsSequence.two_le_length {ts : List Token} (h : IsSequence ts) : 2 ≤ ts.length := by
  obtain ⟨first, middle, last, rfl, -⟩ := h
  simp

/-- A listing has one line for each token. -/
lemma lines_listing (ts : List Token) :
    lines (listing ts).toList = ts.map fun t => t.listing.toList ++ ['\n'] := by
  induction ts with
  | nil => rfl
  | cons t ts ih =>
    have hfeed : '\n' ∉ t.listing.toList := fun hmem => absurd (t.isPlain_listing _ hmem) (by decide)
    rw [toList_listing_cons, lines_append_newline hfeed, ih, List.map_cons]

/-! ### Runs -/

/-- The outcome of a run where `read` answers what the file at a path holds. -/
def runOn (read : String → Except ReadFailure ByteArray) (arguments : List String) : Outcome :=
  Id.run (runCommand (fun path => pure (read path)) arguments)

section

variable {read : String → Except ReadFailure ByteArray} {arguments : List String}
  {path source : String} {bytes : ByteArray} {quiet : Bool} {ts : List Token} {e : ScanError}

/-- A run that lists a file reports what is read from it. -/
lemma runOn_eq (hread : read path = .ok bytes)
    (h : Arguments.empty.read? arguments = some (.list path quiet)) :
    runOn read arguments = report path quiet (.ok bytes) := by
  rw [runOn, runCommand, h, ← hread]
  rfl

lemma report_toUTF8 (path source : String) (quiet : Bool) :
    report path quiet (.ok source.toUTF8) = reportSource path quiet source := by
  rw [report, fromUTF8?_eq_some_iff.mpr rfl]

lemma report_of_not_text (h : ∀ source : String, source.toUTF8 ≠ bytes) :
    report path quiet (.ok bytes) = unreadable path "stream did not contain valid UTF-8" := by
  have hnone : String.fromUTF8? bytes = none := by
    rw [Option.eq_none_iff_forall_ne_some]
    exact fun source hsource => h source (fromUTF8?_eq_some_iff.mp hsource)
  rw [report, hnone]

lemma report_of_ok (h : tokenize (lastName path) source = .ok ts) :
    report path quiet (.ok source.toUTF8) =
      .success (if quiet then countLine ts else listing ts) := by
  rw [report_toUTF8, reportSource, h]

lemma report_of_error (h : tokenize (lastName path) source = .error e) :
    report path quiet (.ok source.toUTF8) = .failure (e.diagnostic source) := by
  rw [report_toUTF8, reportSource, h]

/-- The bytes are a text that is accepted as the source of a file, with these tokens. -/
def IsAccepted (file : String) (bytes : ByteArray) (ts : List Token) : Prop :=
  ∃ source : String, source.toUTF8 = bytes ∧ tokenize file source = .ok ts

lemma IsAccepted.report_eq (h : IsAccepted (lastName path) bytes ts) (quiet : Bool) :
    report path quiet (.ok bytes) = .success (if quiet then countLine ts else listing ts) := by
  obtain ⟨source, rfl, h⟩ := h
  exact report_of_ok h

lemma ScanError.diagnostic_ne_empty (e : ScanError) (source : String) :
    e.diagnostic source ≠ "" := by
  intro h
  have htext := congrArg String.toList h
  rw [diagnostic, String.toList_ofList, diagnosticLines] at htext
  simp at htext

/-- Bytes that are not accepted make both runs fail with the same complaint. -/
lemma accepted_or_fails (path : String) (bytes : ByteArray) :
    (∃ ts, IsAccepted (lastName path) bytes ts) ∨
      ∃ complaint, complaint ≠ "" ∧
        ∀ quiet, report path quiet (.ok bytes) = .failure complaint := by
  by_cases htext : ∃ source : String, source.toUTF8 = bytes
  · obtain ⟨source, rfl⟩ := htext
    cases hresult : tokenize (lastName path) source with
    | ok ts => exact .inl ⟨ts, source, rfl, hresult⟩
    | error e =>
      exact .inr ⟨e.diagnostic source, e.diagnostic_ne_empty source,
        fun quiet => report_of_error hresult⟩
  · rw [not_exists] at htext
    exact .inr ⟨_, by simp, fun quiet => report_of_not_text htext⟩

/-- A quiet run ends as the other run does, and complains about the same. -/
lemma report_quiet (path : String) (bytes : ByteArray) :
    (report path true (.ok bytes)).status = (report path false (.ok bytes)).status ∧
      (report path true (.ok bytes)).complaint = (report path false (.ok bytes)).complaint := by
  rcases accepted_or_fails path bytes with ⟨ts, haccepted⟩ | ⟨complaint, -, hreport⟩
  · rw [haccepted.report_eq, haccepted.report_eq]
    exact ⟨rfl, rfl⟩
  · rw [hreport, hreport]
    exact ⟨rfl, rfl⟩

/-- A run succeeds and has no complaint just when the bytes are accepted. -/
lemma report_succeeds_iff :
    (report path quiet (.ok bytes)).status = 0 ∧ (report path quiet (.ok bytes)).complaint = "" ↔
      ∃ ts, IsAccepted (lastName path) bytes ts := by
  constructor
  · rintro ⟨hstatus, -⟩
    rcases accepted_or_fails path bytes with haccepted | ⟨complaint, -, hreport⟩
    · exact haccepted
    · rw [hreport] at hstatus
      cases hstatus
  · rintro ⟨ts, haccepted⟩
    rw [haccepted.report_eq]
    exact ⟨rfl, rfl⟩

lemma toList_countLine (ts : List Token) : (countLine ts).toList = natDigits ts.length ++ ['\n'] := by
  have hdigits : (String.ofList (natDigits ts.length)).toList = natDigits ts.length :=
    String.toList_ofList
  rw [countLine, String.toList_append, hdigits]
  rfl

/-- Two runs on a file that can be read, of which one is asked to be quiet, end with the same status
and the same complaint. They succeed without a complaint just when the bytes of the file are a text
that is accepted under its last name. Then one lists the tokens line by line, and the other counts
these lines, of which there are at least two. Otherwise both have nothing on standard output, and
complain that the file is no text, or show the error of the scan. The last name of a path is what
stands behind its last slash, and in a tree of files no file is reached by a path without one. -/
theorem runs_agree {plain silent : List String} (hread : read path = .ok bytes)
    (hplain : Arguments.empty.read? plain = some (.list path false))
    (hsilent : Arguments.empty.read? silent = some (.list path true)) :
    (runOn read silent).status = (runOn read plain).status ∧
      (runOn read silent).complaint = (runOn read plain).complaint ∧
      ((runOn read plain).status = 0 ∧ (runOn read plain).complaint = "" ↔
        ∃ ts, IsAccepted (lastName path) bytes ts) ∧
      (∀ ts, IsAccepted (lastName path) bytes ts →
        lines (runOn read plain).output.toList = ts.map (fun t => t.listing.toList ++ ['\n']) ∧
        (runOn read silent).output.toList =
          natDigits (lines (runOn read plain).output.toList).length ++ ['\n'] ∧
        2 ≤ (lines (runOn read plain).output.toList).length) ∧
      ((∀ ts, ¬ IsAccepted (lastName path) bytes ts) →
        (runOn read plain).status = 1 ∧ (runOn read plain).output = "" ∧
        (runOn read silent).output = "" ∧ (runOn read plain).complaint ≠ "") ∧
      ((∀ source : String, source.toUTF8 ≠ bytes) → (runOn read plain).complaint =
        "Error: failed to read " ++ path ++ ": stream did not contain valid UTF-8\n") ∧
      (∀ (source : String) (e : ScanError), source.toUTF8 = bytes →
        tokenize (lastName path) source = .error e →
        (runOn read plain).complaint = e.diagnostic source) ∧
      (∀ name, IsLastName path name → lastName path = name) ∧
      ∀ t : FileTree, t.read path = .ok bytes → IsLastName path (lastName path) := by
  rw [runOn_eq hread hplain, runOn_eq hread hsilent]
  obtain ⟨hstatus, hcomplaint⟩ := report_quiet path bytes
  refine ⟨hstatus, hcomplaint, report_succeeds_iff, ?accepted, ?refused, ?notText, ?fault,
    fun name hname => hname.lastName_eq, fun t ht => t.isLastName_of_read ht⟩
  case accepted =>
    intro ts haccepted
    rw [haccepted.report_eq, haccepted.report_eq]
    change lines (listing ts).toList = _ ∧
      (countLine ts).toList = natDigits (lines (listing ts).toList).length ++ _ ∧
      2 ≤ (lines (listing ts).toList).length
    have hlength : (lines (listing ts).toList).length = ts.length := by
      rw [lines_listing, List.length_map]
    rw [hlength]
    obtain ⟨source, -, hresult⟩ := haccepted
    exact ⟨lines_listing ts, toList_countLine ts, (isSequence_of_tokenize hresult).1.two_le_length⟩
  case refused =>
    intro hnone
    obtain ⟨complaint, hne, hreport⟩ :=
      (accepted_or_fails path bytes).resolve_left (not_exists.mpr hnone)
    rw [hreport, hreport]
    exact ⟨rfl, rfl, rfl, hne⟩
  case notText =>
    intro hnone
    rw [report_of_not_text hnone]
    simp [unreadable, Outcome.complaint, String.append_assoc]
  case fault =>
    intro source e hsource hresult
    rw [← hsource, report_of_error hresult]
    rfl

/-- A source of two lexemes, and a file that is no text. -/
theorem runs_agree_in_directory :
    ∃ t : FileTree,
      t.read "d/a.let" = .ok "a;\n".toUTF8 ∧ t.read "d/b" = .ok ⟨#[0xff]⟩ ∧
      Arguments.empty.read? ["d/a.let"] = some (.list "d/a.let" false) ∧
      Arguments.empty.read? ["-q", "d/a.let"] = some (.list "d/a.let" true) ∧
      Arguments.empty.read? ["d/b"] = some (.list "d/b" false) ∧
      Arguments.empty.read? ["d/b", "--quiet"] = some (.list "d/b" true) ∧
      (t.runCommand ["d/a.let"]).status = 0 ∧
      (t.runCommand ["-q", "d/a.let"]).output.toList = ['4', '\n'] ∧
      (t.runCommand ["d/b", "--quiet"]).status = 1 ∧
      (t.runCommand ["d/b", "--quiet"]).complaint =
        "Error: failed to read d/b: stream did not contain valid UTF-8\n" := by
  let t := (FileTree.empty.write "d/a.let" "a;\n".toUTF8).write "d/b" ⟨#[0xff]⟩
  have hread : t.read "d/a.let" = .ok "a;\n".toUTF8 := by decide +kernel
  have hread' : t.read "d/b" = .ok ⟨#[0xff]⟩ := by decide +kernel
  have hplain : Arguments.empty.read? ["d/a.let"] = some (.list "d/a.let" false) := by
    decide +kernel
  have hsilent : Arguments.empty.read? ["-q", "d/a.let"] = some (.list "d/a.let" true) := by
    decide +kernel
  have hplain' : Arguments.empty.read? ["d/b"] = some (.list "d/b" false) := by decide +kernel
  have hsilent' : Arguments.empty.read? ["d/b", "--quiet"] = some (.list "d/b" true) := by
    decide +kernel
  have hlayout : Layout.IsLayoutOf
      (.item [] (.word ['a']) <| .item [] .semicolon <| .done ['\n']) "a;\n" := by decide +kernel
  have haccepted : IsAccepted (lastName "d/a.let") "a;\n".toUTF8 _ :=
    ⟨_, rfl, tokenize_eq_ok_iff.mpr ⟨_, hlayout, rfl⟩⟩
  have hnone : ∀ source : String, source.toUTF8 ≠ ⟨#[0xff]⟩ := by
    intro source hsource
    have htext := fromUTF8?_eq_some_iff.mpr hsource
    have hnot : String.fromUTF8? ⟨#[0xff]⟩ = none := by decide +kernel
    rw [hnot] at htext
    cases htext
  have hrefused : ∀ ts, ¬ IsAccepted (lastName "d/b") ⟨#[0xff]⟩ ts :=
    fun ts ⟨source, hsource, _⟩ => hnone source hsource
  obtain ⟨-, -, hsucceeds, hlisted, -⟩ := runs_agree hread hplain hsilent
  obtain ⟨hstatus, hcomplaint, -, -, hfails, hbytes, -⟩ := runs_agree hread' hplain' hsilent'
  obtain ⟨hlines, hcount, -⟩ := hlisted _ haccepted
  refine ⟨t, hread, hread', hplain, hsilent, hplain', hsilent',
    (hsucceeds.mpr ⟨_, haccepted⟩).1, ?_, hstatus.trans (hfails hrefused).1,
    hcomplaint.trans (hbytes hnone)⟩
  rw [hlines, List.length_map] at hcount
  exact hcount

end

end DeclLexer
