import Offside.Proofs.Stream.Outcomes
import Offside.Proofs.Stream.States

/-!
# Ways to ask for tokens

Tokens are pulled one at a time, or they come as a stream, which is read to its end or dropped
before; and one lexer may be asked in any of these ways, one after another.  It makes no difference.
What a caller gets is always the tokens of the text in order, none left out and none given twice,
and behind the token that ends the text that token again and again.  A stream stops behind it.  If
the text has an error, it comes in the place where it would come if all tokens were read at once.

## Strategy

Every request is a sequence of pulls (`answered_answer`): a stream that fails has given before what
it was asked for before.  So only pulls are to be compared with the account of the text.  A pull
takes the first token off the account, unless that is the last one (`Reads.of_next`), and induction
over the pulls gives the tokens one by one (`Reads.getElem?_of_pulls`).
-/

namespace Offside.Lexer

open Offside.Action

variable {settings : Settings} {source : Source} {lexer middle left : Lexer} {token : Token}
  {tokens more : List Token} {reading : Reading Error Unit} {cause : Error} {count : ℕ}

/-- What a caller may ask of a lexer. -/
inductive Request where
  /-- A single pull. -/
  | one
  /-- A stream of tokens, dropped after `count` of them unless it stops before. -/
  | upTo (count : ℕ)
  /-- A stream of tokens, read to its end. -/
  | all

namespace Request

/-- What the lexer does about a request. -/
def action : Request → Action (List Token)
  | .one => do return [← next]
  | .upTo count => take count
  | .all => drain

/-- The greatest number of tokens that a request can get. -/
def limit (lexer : Lexer) : Request → ℕ
  | .one => 1
  | .upTo count => count
  | .all => lexer.tokenLimit

/-- Whether tokens are as many as were asked for.  There may be fewer only where a stream has come
to its end, and no stream goes on behind that. -/
def Meets : Request → List Token → Prop
  | .one, tokens => tokens.length = 1
  | .upTo count, tokens =>
      tokens.length ≤ count ∧ (tokens.length < count → EndsOnce tokens) ∧
        ∀ token ∈ tokens.dropLast, token.isEof = false
  | .all, tokens => EndsOnce tokens

/-- What a request gets once the stream has ended. -/
def again (ending : Token) : Request → List Token
  | .upTo 0 => []
  | _ => [ending]

end Request

/-- The tokens of up to `count` pulls, as far as none of them fails. -/
def given : ℕ → Lexer → List Token
  | 0, _ => []
  | count + 1, lexer =>
    match next lexer with
    | .ok token left => token :: if token.isEof then [] else given count left
    | .error _ _ => []

/-- What a request gets: tokens, and then the lexer that is left or the error.  The tokens that a
stream has given before it fails are not lost. -/
def Request.answer (lexer : Lexer) (request : Request) : Reading Error Lexer :=
  match request.action lexer with
  | .ok tokens left => ⟨tokens, .ok left⟩
  | .error cause _ => ⟨given (request.limit lexer) lexer, .error cause⟩

/-- What requests get one after another, up to the first that fails. -/
def Request.answers : List Request → Lexer → List (List Token) × Except Error Lexer
  | [], lexer => ([], .ok lexer)
  | request :: requests, lexer =>
    let answer := request.answer lexer
    match answer.result with
    | .ok left =>
      let (others, result) := Request.answers requests left
      (answer.tokens :: others, result)
    | .error cause => ([answer.tokens], .error cause)

/-! ## Pulls -/

theorem Pulls.append (h : Pulls lexer tokens middle) (h' : Pulls middle more left) :
    Pulls lexer (tokens ++ more) left := by
  induction h with
  | nil lexer => exact h'
  | cons first rest ih => exact .cons first (ih h')

/-- A pull takes the first token off the account, unless it is the last one, which stays. -/
theorem Reads.of_next (h : Reads lexer reading) (first : next lexer = .ok token left) :
    ∃ rest, Reads left ⟨rest, reading.result⟩ ∧
      (reading.tokens = [token] ∧ rest = [token] ∧ reading.result = .ok () ∨
        reading.tokens = token :: rest ∧ token.isEof = false) := by
  cases h with
  | ended last eof =>
      obtain ⟨rfl, rfl⟩ := EStateM.Result.ok.inj (first.symm.trans last)
      have ended := ending_of_mem (.token last (.nil left)) (List.mem_singleton_self token) eof
      exact ⟨[token], .ended (next_of_ended ended) eof, Or.inl ⟨rfl, rfl, rfl⟩⟩
  | @token _ _ _ reading first' running more =>
      obtain ⟨rfl, rfl⟩ := EStateM.Result.ok.inj (first.symm.trans first')
      exact ⟨reading.tokens, more, Or.inr ⟨rfl, running⟩⟩
  | failed failure => simp [first] at failure

theorem Reads.ne_nil (h : Reads lexer ⟨tokens, .ok ()⟩) : tokens ≠ [] := by
  generalize hreading : (⟨tokens, .ok ()⟩ : Reading Error Unit) = reading at h
  cases h with
  | ended last eof =>
      obtain ⟨rfl, -⟩ := Reading.mk.inj hreading
      simp
  | token first running more =>
      obtain ⟨rfl, -⟩ := Reading.mk.inj hreading
      simp
  | failed failure => simp at hreading

/-- If there is no error, pulls never fail, and they give the tokens in order and then the last one
again and again. -/
theorem Reads.getElem?_of_pulls (pulls : Pulls lexer more left)
    (h : Reads lexer ⟨tokens, .ok ()⟩) :
    (∃ rest, Reads left ⟨rest, .ok ()⟩) ∧
      ∀ i token, more[i]? = some token → tokens[min i (tokens.length - 1)]? = some token := by
  induction pulls generalizing tokens with
  | nil lexer => exact ⟨⟨tokens, h⟩, by simp⟩
  | @cons lexer middle left token more first others ih =>
      obtain ⟨rest, hrest, hcases⟩ := h.of_next first
      obtain ⟨hleft, hmore⟩ := ih hrest
      refine ⟨hleft, fun i other hother => ?_⟩
      have hpositive := List.length_pos_iff.mpr hrest.ne_nil
      rcases hcases with ⟨rfl, rfl, -⟩ | ⟨rfl, -⟩
      · cases i with
        | zero => exact hother
        | succ i =>
            have := hmore i other hother
            simpa using this
      · cases i with
        | zero => exact hother
        | succ i =>
            have := hmore i other hother
            have hmin : min (i + 1) (rest.length + 1 - 1) = min i (rest.length - 1) + 1 := by omega
            simp only [List.length_cons, hmin, List.getElem?_cons_succ]
            exact this

/-- If there is an error, pulls give the tokens in front of it, and fail behind the last of them. -/
theorem Reads.exists_append_of_pulls (pulls : Pulls lexer more left)
    (h : Reads lexer ⟨tokens, .error cause⟩) :
    ∃ rest, tokens = more ++ rest ∧ Reads left ⟨rest, .error cause⟩ := by
  induction pulls generalizing tokens with
  | nil lexer => exact ⟨tokens, rfl, h⟩
  | cons first others ih =>
      obtain ⟨rest, hrest, hcases⟩ := h.of_next first
      rcases hcases with ⟨-, -, hresult⟩ | ⟨htokens, -⟩
      · simp at hresult
      · obtain ⟨rest', rfl, hleft⟩ := ih hrest
        exact ⟨rest', htokens, hleft⟩

/-- The end of an account is the next pull. -/
theorem Reads.exists_failure_of_nil (h : Reads lexer ⟨[], .error cause⟩) :
    ∃ left, next lexer = .error cause left := by
  obtain ⟨middle, left, pulls, failure⟩ := h.exists_failure rfl
  cases pulls with
  | nil => exact ⟨left, failure⟩

/-! ## Streams are pulls -/

/-- A result that is made of pulls: tokens as they should be, or the error of a pull behind the
tokens of up to `count` pulls. -/
inductive OfPulls (lexer : Lexer) (meets : List Token → Prop) (count : ℕ) :
    EStateM.Result Error Lexer (List Token) → Prop
  | ok {tokens : List Token} {left : Lexer} (pulls : Pulls lexer tokens left)
      (all : meets tokens) : OfPulls lexer meets count (.ok tokens left)
  | error {middle left : Lexer} {cause : Error} (pulls : Pulls lexer (given count lexer) middle)
      (failure : next middle = .error cause left) : OfPulls lexer meets count (.error cause left)

namespace OfPulls

variable {meets meets' : List Token → Prop} {stream : Action (List Token)}

theorem of_failure (failure : next lexer = .error cause left) :
    OfPulls lexer meets (count + 1) (.error cause left) := by
  have none : given (count + 1) lexer = [] := by simp only [given, failure]
  exact .error (none ▸ .nil lexer) failure

theorem of_eof (last : next lexer = .ok token left) (all : meets [token]) :
    OfPulls lexer meets count (.ok [token] left) :=
  .ok (.cons last (.nil left)) all

/-- A token in front of a stream. -/
theorem cons (first : next lexer = .ok token middle) (running : token.isEof = false)
    (h : OfPulls middle meets count (stream middle))
    (more : ∀ tokens, meets tokens → meets' (token :: tokens)) :
    OfPulls lexer meets' (count + 1)
      ((do
        let tokens ← stream
        return token :: tokens) middle) := by
  have some : given (count + 1) lexer = token :: given count middle := by
    simp only [given, first, running, Bool.false_eq_true, if_false]
  generalize hresult : stream middle = result at h
  cases h with
  | ok pulls all =>
      rw [bind_ok hresult]
      exact .ok (.cons first pulls) (more _ all)
  | error pulls failure =>
      rw [bind_error hresult]
      exact .error (some ▸ .cons first pulls) failure

end OfPulls

theorem EndsOnce.singleton (eof : token.isEof) : EndsOnce [token] :=
  ⟨[], token, rfl, eof, by simp⟩

/-- A token in front of those that a stream has given. -/
theorem Request.Meets.cons (h : (upTo count).Meets tokens) (running : token.isEof = false) :
    (upTo (count + 1)).Meets (token :: tokens) := by
  obtain ⟨hlength, hends, hrunning⟩ := h
  refine ⟨Nat.succ_le_succ hlength,
    fun hlt => (hends (Nat.lt_of_succ_lt_succ hlt)).cons running, ?_⟩
  cases tokens with
  | nil => simp
  | cons other tokens =>
      rw [List.dropLast_cons_cons]
      exact List.forall_mem_cons.mpr ⟨running, hrunning⟩

theorem ofPulls_take (lexer : Lexer) (count : ℕ) :
    OfPulls lexer (Request.upTo count).Meets count (take count lexer) := by
  induction count generalizing lexer with
  | zero => exact .ok (.nil lexer) ⟨Nat.le_refl _, by simp, by simp⟩
  | succ count ih =>
      cases hnext : next lexer with
      | error cause left =>
          rw [take, bind_error hnext]
          exact .of_failure hnext
      | ok token left =>
          rw [take, bind_ok hnext]
          cases eof : token.isEof with
          | true =>
              have all : (Request.upTo (count + 1)).Meets [token] :=
                ⟨Nat.succ_le_succ (Nat.zero_le _), fun _ => .singleton eof, by simp⟩
              exact .of_eof hnext all
          | false => exact .cons hnext eof (ih left) fun tokens h => h.cons eof

/-- The limit of a stream that is read to its end is never reached. -/
theorem ofPulls_drainWithin (running : lexer.ending = none) (increasing : lexer.levels.Increasing)
    (hlimit : lexer.tokenLimit ≤ count) :
    OfPulls lexer EndsOnce count (drainWithin count lexer) := by
  induction count generalizing lexer with
  | zero => simp [tokenLimit] at hlimit
  | succ count ih =>
      cases hnext : next lexer with
      | error cause left =>
          rw [drainWithin_of_error hnext]
          exact .of_failure hnext
      | ok token left =>
          cases eof : token.isEof with
          | true =>
              rw [drainWithin_of_eof hnext eof]
              exact .of_eof hnext (.singleton eof)
          | false =>
              have pull := hnext ▸ pull_next running
              obtain ⟨hincreasing, hless⟩ := pull.keeps increasing
              have hless : left.tokenLimit < lexer.tokenLimit :=
                hless.resolve_right (by simp [eof])
              rw [drainWithin_of_token hnext eof]
              exact .cons hnext eof (ih (pull.running running eof) hincreasing (by omega))
                fun tokens h => h.cons eof

/-- Every request of a lexer at work is made of pulls. -/
theorem AtWork.ofPulls (atWork : AtWork settings source lexer) (request : Request) :
    OfPulls lexer request.Meets (request.limit lexer) (request.action lexer) := by
  cases request with
  | one =>
      show OfPulls lexer (Request.Meets .one) 1 ((next >>= fun token => pure [token]) lexer)
      cases hnext : next lexer with
      | error cause left =>
          rw [bind_error hnext]
          exact .of_failure hnext
      | ok token left =>
          rw [bind_ok hnext]
          exact .of_eof hnext rfl
  | upTo count => exact ofPulls_take lexer count
  | all =>
      show OfPulls lexer EndsOnce lexer.tokenLimit (drainWithin lexer.tokenLimit lexer)
      cases running : lexer.ending with
      | none => exact ofPulls_drainWithin running atWork.increasing (Nat.le_refl _)
      | some ending =>
          have eof : ending.isEof := by
            rw [(atWork.ended ending running).1]
            rfl
          have hnext := next_of_ended running
          rw [tokenLimit, drainWithin_of_eof hnext eof]
          exact .of_eof hnext (.singleton eof)

/-! ## Requests, one after another -/

/-- As long as no request fails, the tokens are those of pulls, as many as were asked for.  Where
one fails, a pull fails behind the tokens of all of them. -/
theorem AtWork.answers (atWork : AtWork settings source lexer) (requests : List Request) :
    (∃ hauls left, Request.answers requests lexer = (hauls, .ok left) ∧
        Pulls lexer hauls.flatten left ∧ List.Forall₂ Request.Meets requests hauls) ∨
      ∃ hauls middle left cause, Request.answers requests lexer = (hauls, .error cause) ∧
        Pulls lexer hauls.flatten middle ∧ next middle = .error cause left := by
  induction requests generalizing lexer with
  | nil => exact Or.inl ⟨[], lexer, rfl, .nil lexer, .nil⟩
  | cons request requests ih =>
      have ofPulls := atWork.ofPulls request
      generalize hresult : request.action lexer = result at ofPulls
      cases ofPulls with
      | @ok tokens left pulls all =>
          have hanswer : request.answer lexer = ⟨tokens, .ok left⟩ := by
            simp only [Request.answer, hresult]
          rcases ih (atWork.of_calls pulls.calls) with ⟨hauls, final, hanswers, more, meets⟩ |
            ⟨hauls, middle, final, cause, hanswers, more, failure⟩
          · refine Or.inl ⟨tokens :: hauls, final, ?_, pulls.append more, .cons all meets⟩
            simp only [Request.answers, hanswer, hanswers]
          · refine Or.inr ⟨tokens :: hauls, middle, final, cause, ?_, pulls.append more, failure⟩
            simp only [Request.answers, hanswer, hanswers]
      | @error middle left cause pulls failure =>
          -- No other request follows, but what a stream has given before it failed is kept.
          have hanswer : request.answer lexer =
              ⟨given (request.limit lexer) lexer, .error cause⟩ := by
            simp only [Request.answer, hresult]
          refine Or.inr ⟨[given (request.limit lexer) lexer], middle, left, cause, ?_, ?_, failure⟩
          · simp only [Request.answers, hanswer]
          · rwa [List.flatten_singleton]

/-- Once the stream has ended, requests get its last token and change nothing. -/
theorem answer_of_ended {ending : Token} (ended : lexer.ending = some ending) (eof : ending.isEof)
    (request : Request) : request.answer lexer = ⟨request.again ending, .ok lexer⟩ := by
  have hnext := next_of_ended ended
  unfold Request.answer
  cases request with
  | one =>
      have haction : Request.one.action lexer = .ok [ending] lexer := bind_ok hnext _
      simp only [haction, Request.again]
  | upTo count =>
      cases count with
      | zero => rfl
      | succ count =>
          have haction : (Request.upTo (count + 1)).action lexer = .ok [ending] lexer := by
            rw [Request.action, take, bind_ok hnext, if_pos eof]
            rfl
          simp only [haction, Request.again]
  | all =>
      have haction : Request.all.action lexer = .ok [ending] lexer :=
        drainWithin_of_eof hnext eof _
      simp only [haction, Request.again]

/-- However the tokens of a text are asked for, they are those of the text in order, then the last
of them again and again.  If the text has an error, then requests get the tokens in front of it in
order, and the one that comes to it fails with it. -/
theorem answers_of_requests (settings : Settings) (source : Source) (requests : List Request) :
    (∀ tokens, tokenize settings source = .ok tokens →
      ∃ hauls left, Request.answers requests (start settings source) = (hauls, .ok left) ∧
        List.Forall₂ Request.Meets requests hauls ∧
        (∀ i token, hauls.flatten[i]? = some token →
          tokens[min i (tokens.length - 1)]? = some token) ∧
        ∀ ending ∈ hauls.flatten, ending.isEof →
          ∀ later : Request, later.answer left = ⟨later.again ending, .ok left⟩) ∧
    ∀ cause, tokenize settings source = .error cause →
      ∃ tokens, Reads (start settings source) ⟨tokens, .error cause⟩ ∧
        ((∃ hauls left, Request.answers requests (start settings source) = (hauls, .ok left) ∧
            List.Forall₂ Request.Meets requests hauls ∧ hauls.flatten <+: tokens ∧
            (hauls.flatten = tokens → ∃ final, next left = .error cause final)) ∨
          ∃ hauls, Request.answers requests (start settings source) = (hauls, .error cause) ∧
            hauls.flatten = tokens) := by
  have atWork := atWork_start settings source
  refine ⟨fun tokens given => ?_, fun cause failure => ?_⟩
  · have reads := reads_of_tokenize given
    rcases atWork.answers requests with ⟨hauls, left, hanswers, pulls, meets⟩ |
      ⟨hauls, middle, final, cause, -, pulls, failure⟩
    · obtain ⟨-, inOrder⟩ := reads.getElem?_of_pulls pulls
      refine ⟨hauls, left, hanswers, meets, inOrder, fun ending hmem eof later => ?_⟩
      exact answer_of_ended (ending_of_mem pulls.calls hmem eof) eof later
    · have hreading := reads.eq_of_failed pulls rfl failure
      simp at hreading
  · obtain ⟨tokens, reads⟩ := exists_reads_of_tokenize_error failure
    refine ⟨tokens, reads, ?_⟩
    rcases atWork.answers requests with ⟨hauls, left, hanswers, pulls, meets⟩ |
      ⟨hauls, middle, final, cause', hanswers, pulls, failure'⟩
    · obtain ⟨rest, htokens, more⟩ := reads.exists_append_of_pulls pulls
      refine Or.inl ⟨hauls, left, hanswers, meets, ⟨rest, htokens.symm⟩, fun all => ?_⟩
      obtain rfl : rest = [] := by simpa [all] using htokens
      exact more.exists_failure_of_nil
    · obtain ⟨htokens, hcause⟩ := Reading.mk.inj (reads.eq_of_failed pulls rfl failure')
      obtain rfl := Except.error.inj hcause
      exact Or.inr ⟨hauls, hanswers, htokens.symm⟩

/-- A stream that is dropped in front of its last token, and one that comes to an error. -/
theorem answers_of_names_and_character :
    (∃ hauls left, Request.answers [.upTo 1, .one, .all, .upTo 2, .one]
        (start .standard ⟨"x y", "a"⟩) = (hauls, .ok left) ∧
      hauls.length = 5 ∧
      ∀ i token, hauls.flatten[i]? = some token →
        [⟨.name, some (.text "x"), "x", ⟨1, 1, "a"⟩⟩, ⟨.name, some (.text "y"), "y", ⟨1, 3, "a"⟩⟩,
          ⟨.layout .eof, none, "", ⟨1, 4, "a"⟩⟩][min i 2]? = some token) ∧
      ∃ tokens, Reads (start .standard ⟨"x ?", "a"⟩)
          ⟨tokens, .error (.lexical ⟨.unexpected '?', some ⟨1, 3, "a"⟩⟩)⟩ ∧
        ((∃ hauls left, Request.answers [.all] (start .standard ⟨"x ?", "a"⟩) = (hauls, .ok left) ∧
            hauls.flatten <+: tokens) ∨
          ∃ hauls, Request.answers [.all] (start .standard ⟨"x ?", "a"⟩) =
            (hauls, .error (.lexical ⟨.unexpected '?', some ⟨1, 3, "a"⟩⟩)) ∧
              hauls.flatten = tokens) := by
  have given : tokenize .standard ⟨"x y", "a"⟩ =
      .ok [⟨.name, some (.text "x"), "x", ⟨1, 1, "a"⟩⟩, ⟨.name, some (.text "y"), "y", ⟨1, 3, "a"⟩⟩,
        ⟨.layout .eof, none, "", ⟨1, 4, "a"⟩⟩] := by
    cbv
  have failure : tokenize .standard ⟨"x ?", "a"⟩ =
      .error (.lexical ⟨.unexpected '?', some ⟨1, 3, "a"⟩⟩) := by decide +kernel
  obtain ⟨hauls, left, hanswers, meets, inOrder, -⟩ :=
    (answers_of_requests .standard ⟨"x y", "a"⟩ [.upTo 1, .one, .all, .upTo 2, .one]).1 _ given
  obtain ⟨tokens, reads, hcases⟩ :=
    (answers_of_requests .standard ⟨"x ?", "a"⟩ [.all]).2 _ failure
  refine ⟨⟨hauls, left, hanswers, meets.length_eq.symm, inOrder⟩, tokens, reads, ?_⟩
  rcases hcases with ⟨hauls', left', hanswers', -, hprefix, -⟩ | hfailed
  · exact Or.inl ⟨hauls', left', hanswers', hprefix⟩
  · exact Or.inr hfailed

/-- What each request gets, if one of them is dropped, and the stream has ended before the last. -/
example :
    (Request.answers [.upTo 1, .one, .upTo 0, .all, .upTo 2, .one]
      (start .standard ⟨"x y z", "a"⟩)).1.map (·.map (·.text)) =
        [["x"], ["y"], [], ["z", ""], [""], [""]] := by
  decide +kernel

end Offside.Lexer
