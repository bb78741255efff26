import SqlSnippet.Command.Run

/-!
# Runs of jobs

What a job does to a session and what it gives (`Job.Yields`, `Job.Fails`), for the parts that
commands are made of. Most parts leave the files as they are, whether they fail or not
(`Job.KeepsTree`).
-/

namespace SqlSnippet

namespace Job

variable {α β : Type} {job : Job α} {f : α → Job β} {a : α} {b : β} {s s' s'' : Session}
  {failure : Failure}

/-- The job, begun in one session, gives a result and ends in another session. -/
def Yields (job : Job α) (s : Session) (a : α) (s' : Session) : Prop :=
  job.run s = (.ok a, s')

/-- The job, begun in one session, fails in another one. -/
def Fails (job : Job α) (s : Session) (failure : Failure) (s' : Session) : Prop :=
  job.run s = (.error failure, s')

theorem yields_pure (a : α) (s : Session) : (pure a : Job α).Yields s a s :=
  rfl

theorem run_bind (job : Job α) (f : α → Job β) (s : Session) : (job >>= f).run s =
    match job.run s with
    | (.ok a, s') => (f a).run s'
    | (.error failure, s') => (.error failure, s') := by
  change (ExceptT.bindCont f (job.run s).1) (job.run s).2 = _
  generalize job.run s = x
  obtain ⟨failure | a, s'⟩ := x <;> rfl

theorem Yields.bind (h : job.Yields s a s') (h' : (f a).Yields s' b s'') :
    (job >>= f).Yields s b s'' := by
  rw [Yields] at *
  rw [run_bind, h]
  exact h'

theorem Yields.bind_fails (h : job.Yields s a s') (h' : (f a).Fails s' failure s'') :
    (job >>= f).Fails s failure s'' := by
  rw [Yields] at h
  rw [Fails] at *
  rw [run_bind, h]
  exact h'

theorem Fails.bind (h : job.Fails s failure s') (f : α → Job β) :
    (job >>= f).Fails s failure s' := by
  rw [Fails] at *
  rw [run_bind, h]

theorem yields_get (s : Session) : (get : Job Session).Yields s s s :=
  rfl

theorem yields_ofExcept (a : α) (s : Session) : (ofExcept (.ok a)).Yields s a s :=
  rfl

theorem fails_ofExcept (failure : Failure) (s : Session) :
    (ofExcept (.error failure) : Job α).Fails s failure s :=
  rfl

theorem yields_mapM_nil (g : α → Job β) (s : Session) : (([] : List α).mapM g).Yields s [] s :=
  rfl

theorem yields_mapM_cons {g : α → Job β} {as : List α} {bs : List β} (h : (g a).Yields s b s')
    (h' : (as.mapM g).Yields s' bs s'') : ((a :: as).mapM g).Yields s (b :: bs) s'' := by
  rw [List.mapM_cons]
  exact h.bind (h'.bind (yields_pure _ _))

/-- The first of many jobs that fails ends the run. -/
theorem fails_mapM_head {g : α → Job β} (h : (g a).Fails s failure s') (as : List α) :
    ((a :: as).mapM g).Fails s failure s' := by
  rw [List.mapM_cons]
  exact h.bind _

theorem fails_mapM_tail {g : α → Job β} {as : List α} (h : (g a).Yields s b s')
    (h' : (as.mapM g).Fails s' failure s'') : ((a :: as).mapM g).Fails s failure s'' := by
  rw [List.mapM_cons]
  exact h.bind_fails (h'.bind _)

/-! ## Printing -/

/-- The lines that show records. -/
def recordLines (clock : String) (rs : List Record) : Text :=
  rs.flatMap fun r => (clock ++ " - " ++ r.line).toList ++ ['\n']

theorem recordLines_append (clock : String) (rs qs : List Record) :
    recordLines clock (rs ++ qs) = recordLines clock rs ++ recordLines clock qs :=
  List.flatMap_append

theorem yields_putLine (x : String) (s : Session) :
    (putLine x).Yields s () { s with out := s.out ++ (x.toList ++ ['\n']) } :=
  rfl

theorem yields_putLoose {x : LooseText} {y : Text} (h : x.toText = .ok y) (s : Session) :
    (putLoose x).Yields s () { s with out := s.out ++ y } := by
  rw [putLoose, h]
  rfl

/-- Of a loose text that is no text nothing is printed. -/
theorem fails_putLoose {x : LooseText} {e : StrayHalves} (h : x.toText = .error e) (s : Session) :
    (putLoose x).Fails s (.fault (.strayHalves e)) s := by
  rw [putLoose, h]
  rfl

theorem yields_forM_tellLine (g : α → String) (as : List α) (s : Session) :
    (as.forM fun a => tellLine (g a)).Yields s ()
      { s with err := s.err ++ as.flatMap fun a => (g a).toList ++ ['\n'] } := by
  induction as generalizing s with
  | nil =>
    rw [List.flatMap_nil, List.append_nil]
    rfl
  | cons a as ih =>
    rw [List.flatMap_cons, ← List.append_assoc, ← List.append_assoc]
    exact Yields.bind rfl (ih _)

theorem yields_tellRecords (clock : String) (least : Severity) (rs : List Record) (s : Session) :
    (tellRecords clock least rs).Yields s ()
      { s with err := s.err ++ recordLines clock (rs.filter (Record.shownAt least)) } :=
  yields_forM_tellLine (fun r : Record => clock ++ " - " ++ r.line) _ s

/-- Lines for the attention of the user change nothing else. -/
theorem exists_yields_forM_tellLine (g : α → String) (as : List α) (s : Session) :
    ∃ err, (as.forM fun a => tellLine (g a)).Yields s () { s with err := err } :=
  ⟨_, yields_forM_tellLine g as s⟩

theorem exists_yields_tellRecords (clock : String) (least : Severity) (rs : List Record)
    (s : Session) : ∃ err, (tellRecords clock least rs).Yields s () { s with err := err } :=
  ⟨_, yields_tellRecords clock least rs s⟩

/-! ## Files -/

theorem yields_readSource {here : Place} {source x : Text} (hname : source ≠ stdinName)
    (h : s.tree.readText here (.ofText source) = .ok x) :
    (readSource here source).Yields s x s := by
  rw [readSource, if_neg hname]
  exact (yields_get s).bind (by rw [h]; exact yields_ofExcept x s)

/-- Why a source is refused that cannot be read. -/
def unreadableSource (source : Text) (f : Fault) : Failure :=
  .error (.ofFault ("Could not read " ++ String.ofList source)
    (some "Check that the file is readable UTF-8 text") f)

theorem fails_readSource {here : Place} {source : Text} {f : Fault} (hname : source ≠ stdinName)
    (h : s.tree.readText here (.ofText source) = .error f) :
    (readSource here source).Fails s (unreadableSource source f) s := by
  rw [readSource, if_neg hname]
  exact (yields_get s).bind_fails (by rw [h]; exact fails_ofExcept _ s)

theorem yields_writeFile {here : Place} {p : Path} {x : Text} {t : FileTree}
    (tell : Fault → Failure) (h : s.tree.writeText here p x = .ok t) :
    (writeFile here p x tell).Yields s () { s with tree := t } := by
  refine (yields_get s).bind ?_
  rw [h]
  exact (yields_ofExcept t s).bind rfl

/-- A file that cannot be written leaves all files as they are. -/
theorem fails_writeFile {here : Place} {p : Path} {x : Text} {f : Fault} (tell : Fault → Failure)
    (h : s.tree.writeText here p x = .error f) : (writeFile here p x tell).Fails s (tell f) s := by
  refine (yields_get s).bind_fails ?_
  rw [h]
  exact (fails_ofExcept (tell f) s).bind _

theorem yields_writeLoose {here : Place} {p : Path} {x : LooseText} {y : Text} {t : FileTree}
    (tell : Fault → Failure) (hx : x.toText = .ok y) (h : s.tree.writeText here p y = .ok t) :
    (writeLoose here p x tell).Yields s () { s with tree := t } := by
  rw [writeLoose, hx]
  exact yields_writeFile tell h

theorem fails_writeLoose {here : Place} {p : Path} {f : Fault} (x : LooseText)
    (tell : Fault → Failure) (h : ∀ y, s.tree.writeText here p y = .error f) :
    (writeLoose here p x tell).Fails s (tell f) s := by
  unfold writeLoose
  split
  · exact fails_writeFile tell (h _)
  · exact (fails_writeFile tell (h [])).bind _

/-- A file that is to hold a loose text is left empty if that is no text. -/
theorem fails_writeLoose_of_strayHalves {here : Place} {p : Path} {x : LooseText}
    {e : StrayHalves} {t : FileTree} (tell : Fault → Failure) (hx : x.toText = .error e)
    (h : s.tree.writeText here p [] = .ok t) :
    (writeLoose here p x tell).Fails s (tell (.strayHalves e)) { s with tree := t } := by
  rw [writeLoose, hx]
  exact (yields_writeFile tell h).bind_fails rfl

/-! ## Jobs that change no file -/

/-- The job leaves the files as they are, whether it fails or not. -/
def KeepsTree (job : Job α) : Prop :=
  ∀ s, (job.run s).2.tree = s.tree

theorem keepsTree_pure (a : α) : (pure a : Job α).KeepsTree :=
  fun _ => rfl

theorem keepsTree_ofExcept (r : Except Failure α) : (ofExcept r).KeepsTree :=
  fun _ => rfl

theorem keepsTree_throw (failure : Failure) : (throw failure : Job α).KeepsTree :=
  fun _ => rfl

theorem keepsTree_putText (x : Text) : (putText x).KeepsTree :=
  fun _ => rfl

theorem KeepsTree.bind (h : job.KeepsTree) (h' : ∀ a, (f a).KeepsTree) :
    (job >>= f).KeepsTree := by
  intro s
  rw [run_bind]
  have hjob := h s
  generalize job.run s = x at hjob
  obtain ⟨failure | a, s'⟩ := x
  · exact hjob
  · exact (h' a s').trans hjob

/-- A job that is made from the session at its start. -/
theorem keepsTree_get_bind {f : Session → Job β} (h : ∀ s, (f s).KeepsTree) :
    (get >>= f).KeepsTree :=
  fun s => h s s

theorem keepsTree_mapM {g : α → Job β} (h : ∀ a, (g a).KeepsTree) (as : List α) :
    (as.mapM g).KeepsTree := by
  induction as with
  | nil => exact keepsTree_pure []
  | cons a as ih =>
    rw [List.mapM_cons]
    exact (h a).bind fun b => ih.bind fun bs => keepsTree_pure (b :: bs)

theorem keepsTree_forM_tellLine (g : α → String) (as : List α) :
    (as.forM fun a => tellLine (g a)).KeepsTree := by
  intro s
  have h := yields_forM_tellLine g as s
  rw [Yields] at h
  rw [h]

theorem keepsTree_tellRecords (clock : String) (least : Severity) (rs : List Record) :
    (tellRecords clock least rs).KeepsTree :=
  keepsTree_forM_tellLine (fun r : Record => clock ++ " - " ++ r.line) _

theorem keepsTree_readSource (here : Place) (source : Text) :
    (readSource here source).KeepsTree := by
  rw [readSource]
  split
  · exact fun _ => rfl
  · exact keepsTree_get_bind fun _ => keepsTree_ofExcept _

end Job

end SqlSnippet
