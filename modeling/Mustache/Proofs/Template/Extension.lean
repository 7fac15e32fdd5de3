import Mustache.Proofs.Template.Parts

/-!
# Templates with more text behind them

A source that is no template may become one when text is appended, but only if an end is missing: of
a tag, or of a section. Any other fault stays the first one, whatever is appended. So what an author
has typed of a template up to some point either compiles or has something left open.
-/

namespace Mustache

/-- Whether text behind the source may mend the fault. -/
def ParseFault.isOpenEnded : ParseFault → Bool
  | unclosedTag _     => true
  | unclosedSection _ => true
  | _                 => false

namespace Template

variable {source more : Text} {d : Delimiters} {e : ParseError}

/-- The first fault of a source is the first one of any longer source, if it is no missing end. -/
lemma firstFault_append (h : FirstFault source (scan source d) e)
    (hfault : e.fault.isOpenEnded = false) (more : Text) :
    FirstFault (source ++ more) (scan (source ++ more) d) e := by
  have hdissection := (Scanner.rounds_run (.start source d)).dissection
    (List.nil_append source).symm rfl
  have hsource : source ++ more = [] ++ source ++ more := rfl
  have hname (raw : RawTag) (hraw : .tag raw ∈ (scan source d).tokens) :
      (raw.shift 0).name (source ++ more) = raw.name source :=
    RawTag.name_shift hsource (hdissection.content_liesIn raw hraw)
  have hsound (tokens : List Token) (htokens : tokens ⊆ (scan source d).tokens)
      (opens : OpenNames) (h : Sound source tokens opens) :
      Sound (source ++ more) tokens opens := by
    simpa using h.shift fun raw hraw => hname raw (htokens hraw)
  cases h with
  | @tag earlier later raw opens fault htokens hearlier hviolates =>
    obtain ⟨later', hlater⟩ := Scanner.exists_tokens_append htokens more
    have hraw : .tag raw ∈ (scan source d).tokens := by simp [htokens]
    refine .tag hlater (hsound earlier (by simp [htokens]) opens hearlier) ?_
    simpa using hviolates.shift (hname raw hraw)
  | @scan failure opens hfailure htokens =>
    cases failure with
    | unclosedTag span expected => simp [ParseError.ofScanError, ParseFault.isOpenEnded] at hfault
    | invalidDelimiters span reason =>
      rw [Scanner.scan_append_of_invalidDelimiters hfailure more]
      exact .scan hfailure (hsound _ (List.Subset.refl _) opens htokens)
  | unclosed => simp [ParseFault.isOpenEnded] at hfault

/-- A fault that is no missing end is the one reported of any longer source, with the same names and
at the same place; and what a template begins with either compiles or misses an end. -/
theorem compile_append (hsize : (source ++ more).byteSize ≤ maxOffset) :
    (∀ e, compile source d = .error e → e.fault.isOpenEnded = false →
      compile (source ++ more) d = .error e) ∧
    ((∃ t, compile (source ++ more) d = .ok t) →
      (∃ t, compile source d = .ok t) ∨
        ∃ e, compile source d = .error e ∧ e.fault.isOpenEnded = true) := by
  have hpart : source.byteSize ≤ maxOffset := by
    rw [Text.byteSize_append] at hsize
    omega
  have hstays (e : ParseError) (h : compile source d = .error e)
      (hfault : e.fault.isOpenEnded = false) : compile (source ++ more) d = .error e := by
    have hfirst := firstFault_of_compile hpart h
    exact compile_eq_error_of_firstFault hsize (firstFault_append hfirst hfault more)
  refine ⟨hstays, ?_⟩
  rintro ⟨t, ht⟩
  cases hcompile : compile source d with
  | ok t' => exact .inl ⟨t', rfl⟩
  | error e =>
    refine .inr ⟨e, rfl, ?_⟩
    by_contra hfault
    rw [hstays e hcompile (by simpa using hfault)] at ht
    simp at ht

/-- With pointed delimiters: a closing tag with the wrong name stays wrong when the right one is
appended; and a template that is cut inside a delimiter change misses an end. -/
theorem compile_append_mismatched :
    ∃ d, Delimiters.make ['<'] ['>'] = .ok d ∧
      compile "<#a></b>".toList d = .error ⟨.mismatchedClose ['a'] ['b'], ⟨4, 8⟩⟩ ∧
      compile ("<#a></b>".toList ++ "</a>".toList) d =
        .error ⟨.mismatchedClose ['a'] ['b'], ⟨4, 8⟩⟩ ∧
      (∃ t, compile ("a<=| ".toList ++ "|=>|b|".toList) d = .ok t) ∧
      ((∃ t, compile "a<=| ".toList d = .ok t) ∨
        ∃ e, compile "a<=| ".toList d = .error e ∧ e.fault.isOpenEnded = true) := by
  let d : Delimiters := ⟨['<'], ['>'], delimiterError?_eq_none_iff.1 rfl,
    delimiterError?_eq_none_iff.1 rfl⟩
  have hmismatched : compile "<#a></b>".toList d =
      .error ⟨.mismatchedClose ['a'] ['b'], ⟨4, 8⟩⟩ := by decide +kernel
  have hok : (compile ("a<=| ".toList ++ "|=>|b|".toList) d).isOk = true := by decide +kernel
  have hcompiles := exists_compile_of_isOk hok
  refine ⟨d, Delimiters.make_self d, hmismatched, ?_, hcompiles, ?_⟩
  · exact (compile_append (by decide +kernel)).1 _ hmismatched rfl
  · exact (compile_append (by decide +kernel)).2 hcompiles

end Template

end Mustache
