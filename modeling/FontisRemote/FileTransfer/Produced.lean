import FontisRemote.FileTransfer.Delegated
import FontisRemote.FileTransfer.Keys

/-!
# The blocks of a read job

The blocks that a job produces through `read` while each file is opened and confirmed in its turn
(`produced`). On a disk where its files can be read these are, for each file in order, blocks that together
carry its contents, at least one of them (`produced_carries`).
-/

namespace FontisRemote.FileTransfer

open FontisRemote.Lib

section Produced

variable {W H : Type} (os : Host W H)

/-- Have the current file open, and confirmed from its beginning if the peer is asked. -/
def TransferJob.prepare (job : TransferJob H) (w : W) : TransferJob H × W :=
  match job.initDataStream os w with
  | (_, [], job, w) => (job, w)
  | (_, _ :: _, job, w) => job.confirm os ⟨job.id, job.fileNum, some (.offsetBlk 0)⟩ w

/-- The blocks of so many rounds, up to the end of the job or an error. -/
def produced : Nat → TransferJob H → W → List FileTransferBlock
  | 0, _, _ => []
  | rounds + 1, job, w =>
    let (job, w) := job.prepare os w
    match job.read os w with
    | (.ok (some block), job, w) => block :: produced rounds job w
    | _ => []

/-- The bytes a block stands for. -/
def FileTransferBlock.payload (block : FileTransferBlock) : Bytes :=
  if block.compressed then os.decompress block.data else block.data

/-- Blocks of one file that together carry these bytes. -/
structure CarriesFile (id : Int) (m : Nat) (bytes : Bytes) (blocks : List FileTransferBlock) : Prop where
  ne : blocks ≠ []
  own : ∀ block ∈ blocks, block.id = id ∧ block.fileNum = m
  bytes : blocks.flatMap (·.payload os) = bytes

/-- Blocks of files in order, numbered from here on. -/
inductive Carries (id : Int) (content : FileEntry → Bytes) : Nat → List FileEntry → List FileTransferBlock → Prop
  | nil (m : Nat) : Carries id content m [] []
  | cons {m : Nat} {file : FileEntry} {files : List FileEntry} {blocks rest : List FileTransferBlock}
      (first : CarriesFile os id m (content file) blocks) (later : Carries id content (m + 1) files rest) :
      Carries id content m (file :: files) (blocks ++ rest)

variable {os}

/-- A confirm without an offset. -/
theorem confirm_from_start (job : TransferJob H) (w : W) :
    job.confirm os ⟨job.id, job.fileNum, some (.offsetBlk 0)⟩ w = (job.setFileConfirmed true, w) := by
  simp [TransferJob.confirm]

/-- Opening the file first changes nothing if it is opened anyway. -/
theorem produced_prepare {job job' : TransferJob H} {w : W} (h : job.prepare os w = (job', w))
    (h' : job'.prepare os w = (job', w)) (rounds : Nat) : produced os rounds job w = produced os rounds job' w := by
  cases rounds with
  | zero => rfl
  | succ rounds =>
    unfold produced
    rw [h, h']

end Produced

/-! ## One round on a disk -/

/-- What is in a file. -/
def Disk.content (d : Disk) (base : Text) (file : FileEntry) : Bytes :=
  (d.fs.contents (pathKey (join false base file.name))).getD []

/-- A job that reads the files below a path and is at the file of this number. -/
structure Reads (p : Text) (files : List FileEntry) (id : Int) (m : Nat) (job : TransferJob Handle) : Prop where
  generic : job.type = .generic
  path : job.dataSource = .filePath p
  files : job.files = files
  id : job.id = id
  fileNum : job.fileNum = m

/-- The job has not opened the file yet. -/
structure AtStart (p : Text) (files : List FileEntry) (id : Int) (m : Nat) (job : TransferJob Handle) : Prop
    extends Reads p files id m job where
  stream : job.dataStream = none
  confirmed : job.fileConfirmed = false
  waiting : job.fileIsWaiting = false

/-- The job may read the file on from here. -/
structure InFile (p : Text) (files : List FileEntry) (id : Int) (m ino pos : Nat) (job : TransferJob Handle) : Prop
    extends Reads p files id m job where
  stream : job.dataStream = some (.fileStream ⟨ino, pos, false⟩)
  confirmed : job.enableOverwriteDetection = true → job.fileConfirmed = true

section Rounds

variable {c : Codec} {d : Disk} {p : Text} {files : List FileEntry} {id : Int} {m ino pos : Nat}
  {job : TransferJob Handle} {file : FileEntry}

theorem entryAt_nat (files : List FileEntry) (m : Nat) : entryAt files m = files[m]? := by
  simp [entryAt]

/-- The next bytes of a file, a whole buffer of them unless it ends before. -/
theorem fill_host (c : Codec) (d : Disk) (ino pos : Nat) :
    (DataStream.fileStream (⟨ino, pos, false⟩ : Handle)).fill (Disk.host c {}) (BUF_SIZE + 1) [] d =
      (.ok (((d.fs.data ino).drop pos).take BUF_SIZE),
        .fileStream ⟨ino, pos + (((d.fs.data ino).drop pos).take BUF_SIZE).length, false⟩, d) := by
  have hread : ∀ pos room, (DataStream.fileStream (⟨ino, pos, false⟩ : Handle)).read (Disk.host c {}) room d =
      (.ok (((d.fs.data ino).drop pos).take room),
        .fileStream ⟨ino, pos + (((d.fs.data ino).drop pos).take room).length, false⟩, d) := by
    intro pos room
    simp [DataStream.read, Disk.host, Except.map]
  generalize hchunk : ((d.fs.data ino).drop pos).take BUF_SIZE = chunk
  have htwo : ∀ rounds, (DataStream.fileStream (⟨ino, pos, false⟩ : Handle)).fill (Disk.host c {}) (rounds + 2) [] d =
      (.ok chunk, .fileStream ⟨ino, pos + chunk.length, false⟩, d) := by
    intro rounds
    rw [DataStream.fill, List.length_nil, Nat.sub_zero, hread, hchunk]
    dsimp only
    rw [List.nil_append, Nat.zero_add]
    split_ifs with hend
    · rfl
    · -- the buffer is not full, so that the file has ended
      have hshort : chunk.length < BUF_SIZE := by
        have hle : chunk.length ≤ BUF_SIZE := hchunk ▸ List.length_take_le ..
        have hne := (not_or.1 hend).2
        omega
      have hrest : (d.fs.data ino).drop (pos + chunk.length) = [] := by
        rw [← hchunk, List.length_take] at hshort ⊢
        rw [List.drop_eq_nil_iff]
        simp only [List.length_drop] at hshort ⊢
        omega
      rw [DataStream.fill, hread, hrest]
      simp
  exact htwo 131071

theorem prepare_start (h : AtStart p files id m job) (hfile : files[m]? = some file)
    (hdir : mustDir (join false p file.name) = false)
    (hino : d.fs.fileAt (pathKey (join false p file.name)) = some ino) :
    ∃ job', job.prepare (Disk.host c {}) d = (job', d) ∧ InFile p files id m ino 0 job' := by
  have hentry : entryAt job.files job.fileNum = some file := by rw [h.files, h.fileNum, entryAt_nat, hfile]
  have hopen : (Disk.host c {}).openFile (join (Disk.host c {}).win p file.name) d = (.ok ⟨ino, 0, false⟩, d) := by
    simp only [Disk.host, hdir, hino, Bool.or_self, Bool.false_eq_true, if_false]
  unfold TransferJob.prepare TransferJob.initDataStream
  rw [TransferJob.openDataStream_of_ok h.path hentry h.stream hopen]
  have hreads : ∀ job' : TransferJob Handle, job'.type = job.type → job'.dataSource = job.dataSource →
      job'.files = job.files → job'.id = job.id → job'.fileNum = job.fileNum → Reads p files id m job' :=
    fun job' htype hsource hfiles hid hnum =>
      ⟨htype.trans h.generic, hsource.trans h.path, hfiles.trans h.files, hid.trans h.id, hnum.trans h.fileNum⟩
  cases hdetect : job.enableOverwriteDetection with
  | false =>
    simp only [TransferJob.awaitsDigest, Bool.and_false, Bool.false_and, Bool.false_eq_true, if_false]
    refine ⟨_, rfl, hreads _ rfl rfl rfl rfl rfl, rfl, ?_⟩
    rintro ⟨⟩
  | true =>
    rw [h.generic]
    exact ⟨_, confirm_from_start _ d, hreads _ h.generic.symm rfl rfl rfl rfl, rfl, fun _ => rfl⟩

theorem prepare_inFile (h : InFile p files id m ino pos job) (hm : m < files.length) :
    job.prepare (Disk.host c {}) d = (job, d) := by
  have hentry : entryAt job.files job.fileNum = some files[m] := by
    rw [h.files, h.fileNum, entryAt_nat, List.getElem?_eq_getElem hm]
  have hawaits : job.awaitsDigest = false := by
    cases hdetect : job.enableOverwriteDetection with
    | false => simp [TransferJob.awaitsDigest, hdetect]
    | true => simp [TransferJob.awaitsDigest, h.confirmed hdetect]
  unfold TransferJob.prepare TransferJob.initDataStream
  rw [TransferJob.openDataStream_of_some h.path hentry h.stream]
  simp only [hawaits, Bool.false_eq_true, if_false]

/-- A block stands for the bytes that were read, compressed or not. -/
theorem payload_readBlock (hc : ∀ bytes, c.decompress (c.compress bytes) = bytes) (job : TransferJob Handle)
    (buf : Bytes) : (job.readBlock (Disk.host c {}) buf).1.payload (Disk.host c {}) = buf := by
  unfold TransferJob.readBlock FileTransferBlock.payload
  dsimp only
  split_ifs
  · exact hc buf
  · rfl

/-- What `read` does with an open file. -/
theorem read_inFile (h : InFile p files id m ino pos job) (hm : m < files.length)
    (hc : ∀ bytes, c.decompress (c.compress bytes) = bytes) :
    ∃ block job', job.read (Disk.host c {}) d = (.ok (some block), job', d) ∧ block.id = id ∧ block.fileNum = m ∧
      block.payload (Disk.host c {}) = ((d.fs.data ino).drop pos).take BUF_SIZE ∧
      if ((d.fs.data ino).drop pos).take BUF_SIZE = [] then AtStart p files id (m + 1) job'
      else InFile p files id m ino (pos + (((d.fs.data ino).drop pos).take BUF_SIZE).length) job' := by
  have hconfirmed : ¬ (job.type = .generic ∧ job.enableOverwriteDetection = true ∧ (!job.fileConfirmed) = true) := by
    rintro ⟨-, hdetect, hno⟩
    rw [h.confirmed hdetect] at hno
    cases hno
  have hexhausted : job.exhausted = false := by
    simp only [TransferJob.exhausted, h.path, h.files, h.fileNum, entryAt_nat, List.getElem?_eq_getElem hm]
    rfl
  unfold TransferJob.read
  rw [if_neg hconfirmed, hexhausted, if_neg Bool.false_ne_true, h.stream]
  dsimp only
  rw [fill_host]
  generalize ((d.fs.data ino).drop pos).take BUF_SIZE = chunk
  cases chunk with
  | nil =>
    dsimp only
    rw [h.path]
    refine ⟨_, _, rfl, h.id, h.fileNum, rfl, ?_⟩
    rw [if_pos rfl]
    refine ⟨⟨h.generic, rfl, h.files, h.id, ?_⟩, rfl, rfl, rfl⟩
    show job.fileNum + 1 = ((m + 1 : Nat) : Int)
    rw [h.fileNum]
    rfl
  | cons b chunk =>
    dsimp only
    refine ⟨_, _, rfl, h.id, h.fileNum, payload_readBlock hc _ _, ?_⟩
    rw [if_neg (List.cons_ne_nil _ _)]
    exact ⟨⟨h.generic, h.path, h.files, h.id, h.fileNum⟩, rfl, h.confirmed⟩

theorem CarriesFile.cons {block : FileTransferBlock} {blocks : List FileTransferBlock} {bytes : Bytes}
    (hid : block.id = id) (hnum : block.fileNum = m) (h : CarriesFile (Disk.host c {}) id m bytes blocks) :
    CarriesFile (Disk.host c {}) id m (block.payload (Disk.host c {}) ++ bytes) (block :: blocks) := by
  refine ⟨List.cons_ne_nil _ _, List.forall_mem_cons.2 ⟨⟨hid, hnum⟩, h.own⟩, ?_⟩
  rw [List.flatMap_cons, h.bytes]

/-- The blocks of a file from a position on. -/
theorem produced_inFile (h : InFile p files id m ino pos job) (hm : m < files.length)
    (hc : ∀ bytes, c.decompress (c.compress bytes) = bytes) :
    ∃ blocks job', CarriesFile (Disk.host c {}) id m ((d.fs.data ino).drop pos) blocks ∧
      blocks.length ≤ ((d.fs.data ino).drop pos).length + 1 ∧ AtStart p files id (m + 1) job' ∧
      ∀ rounds, produced (Disk.host c {}) (blocks.length + rounds) job d =
        blocks ++ produced (Disk.host c {}) rounds job' d := by
  induction hn : ((d.fs.data ino).drop pos).length using Nat.strong_induction_on generalizing pos job with
  | _ n ih =>
    obtain ⟨block, job', hread, hid, hnum, hpayload, hnext⟩ := read_inFile (d := d) h hm hc
    have hround : ∀ rounds, produced (Disk.host c {}) (rounds + 1) job d =
        block :: produced (Disk.host c {}) rounds job' d := by
      intro rounds
      rw [produced, prepare_inFile h hm]
      dsimp only
      rw [hread]
    have hone : CarriesFile (Disk.host c {}) id m (block.payload (Disk.host c {})) [block] :=
      ⟨List.cons_ne_nil _ _, List.forall_mem_singleton.2 ⟨hid, hnum⟩, List.flatMap_singleton ..⟩
    split_ifs at hnext with hempty
    · -- the end of the file, told by a block without bytes
      have hend : (d.fs.data ino).drop pos = [] := (List.take_eq_nil_iff.1 hempty).resolve_left (by decide)
      refine ⟨[block], job', ?_, Nat.le_add_left 1 n, hnext, fun rounds => ?_⟩
      · rwa [hpayload, hempty, ← hend] at hone
      · rw [List.length_singleton, Nat.add_comm, hround]
        rfl
    · have hshorter : ((d.fs.data ino).drop (pos + (((d.fs.data ino).drop pos).take BUF_SIZE).length)).length +
          (((d.fs.data ino).drop pos).take BUF_SIZE).length = n := by
        rw [← hn, List.length_drop, List.length_take, List.length_drop]
        omega
      have hpos : 0 < (((d.fs.data ino).drop pos).take BUF_SIZE).length := List.length_pos_of_ne_nil hempty
      obtain ⟨blocks, job'', hcarries, hlength, hstart, hrounds⟩ := ih _ (by omega) hnext rfl
      refine ⟨block :: blocks, job'', ?_, ?_, hstart, fun rounds => ?_⟩
      · have hmore := hcarries.cons hid hnum
        rwa [hpayload, ← List.drop_drop, List.prefix_iff_eq_append.1 (List.take_prefix ..)] at hmore
      · rw [List.length_cons]
        omega
      · rw [List.length_cons, Nat.add_right_comm, hround, hrounds, List.cons_append]

/-- Past the last file there is nothing to read. -/
theorem produced_end (h : AtStart p files id files.length job) (rounds : Nat) :
    produced (Disk.host c {}) rounds job d = [] := by
  cases rounds with
  | zero => rfl
  | succ rounds =>
    have hentry : entryAt job.files job.fileNum = none := by
      rw [h.files, h.fileNum, entryAt_nat, List.getElem?_eq_none le_rfl]
    have hprepare : job.prepare (Disk.host c {}) d = (job, d) := by
      have hsame : { job with dataStream := none } = job := by
        rw [← h.stream]
      unfold TransferJob.prepare TransferJob.initDataStream
      rw [TransferJob.openDataStream_of_none h.path hentry, hsame]
    have hread : ∃ job', job.read (Disk.host c {}) d = (.ok none, job', d) := by
      have hexhausted : job.exhausted = true := by
        simp [TransferJob.exhausted, h.path, hentry]
      unfold TransferJob.read
      rw [hexhausted, if_pos rfl]
      split_ifs
      · exact ⟨_, rfl⟩
      · exact ⟨_, rfl⟩
    obtain ⟨job', hread⟩ := hread
    rw [produced, hprepare]
    dsimp only
    rw [hread]

/-- Each of the files is one, and can be read. -/
def Readable (d : Disk) (p : Text) (files : List FileEntry) : Prop :=
  ∀ file ∈ files, d.isFile (join false p file.name) = true

/-- More rounds than it takes to read the files. -/
def enoughRounds (d : Disk) (p : Text) (files : List FileEntry) : Nat :=
  (files.map fun file => (d.content p file).length + 1).sum

theorem produced_files (hc : ∀ bytes, c.decompress (c.compress bytes) = bytes) (hreadable : Readable d p files)
    {before after : List FileEntry} (hfiles : files = before ++ after) (h : AtStart p files id before.length job) :
    ∃ blocks, Carries (Disk.host c {}) id (d.content p) before.length after blocks ∧
      blocks.length ≤ enoughRounds d p after ∧
      ∀ rounds, produced (Disk.host c {}) (blocks.length + rounds) job d = blocks := by
  induction after generalizing before job with
  | nil =>
    rw [List.append_nil] at hfiles
    refine ⟨[], .nil _, Nat.zero_le _, fun rounds => ?_⟩
    rw [List.length_nil, Nat.zero_add]
    rw [← hfiles] at h
    exact produced_end h rounds
  | cons file after ih =>
    have hm : before.length < files.length := by
      rw [hfiles, List.length_append, List.length_cons]
      omega
    have hfile : files[before.length]? = some file := by
      rw [hfiles, List.getElem?_append_right le_rfl, Nat.sub_self]
      rfl
    obtain ⟨hsome, hdir⟩ := Bool.and_eq_true_iff.1 (hreadable file (List.mem_of_getElem? hfile))
    obtain ⟨ino, hino⟩ := Option.isSome_iff_exists.1 hsome
    have hcontent : d.content p file = (d.fs.data ino).drop 0 := by
      rw [Disk.content, FileSystem.contents, hino]
      rfl
    obtain ⟨job₁, hprepare, hin⟩ := prepare_start (c := c) h hfile (by simpa using hdir) hino
    obtain ⟨blocks, job₂, hcarries, hlength, hstart, hrounds⟩ := produced_inFile hin hm hc
    have hnext : before.length + 1 = (before ++ [file]).length := by
      rw [List.length_append, List.length_singleton]
    rw [hnext] at hstart
    obtain ⟨rest, hcarries', hlength', hrounds'⟩ := ih (by rw [hfiles, List.append_assoc]; rfl) hstart
    rw [← hcontent] at hcarries hlength
    refine ⟨blocks ++ rest, .cons hcarries (hnext ▸ hcarries'), ?_, fun rounds => ?_⟩
    · rw [List.length_append, enoughRounds, List.map_cons, List.sum_cons]
      exact Nat.add_le_add hlength hlength'
    · rw [produced_prepare hprepare (prepare_inFile hin hm), List.length_append, Nat.add_assoc, hrounds, hrounds']

end Rounds

/-- The blocks of a request for files that can be read, in any number of rounds that is enough. -/
theorem produced_carries {c : Codec} (hc : ∀ bytes, c.decompress (c.compress bytes) = bytes) {d : Disk}
    {q : SendRequest} (hstart : q.fileNum = 0) (hreadable : Readable d q.path q.files) {rounds : Nat}
    (hrounds : enoughRounds d q.path q.files ≤ rounds) :
    Carries (Disk.host c {}) q.id (d.content q.path) 0 q.files (produced (Disk.host c {}) rounds q.newRead d) := by
  have h : AtStart q.path q.files q.id 0 q.newRead := ⟨⟨rfl, rfl, rfl, rfl, hstart⟩, rfl, rfl, rfl⟩
  obtain ⟨blocks, hcarries, hlength, hproduced⟩ := produced_files hc hreadable (List.nil_append q.files).symm h
  obtain ⟨extra, rfl⟩ := Nat.exists_eq_add_of_le (hlength.trans hrounds)
  rw [hproduced]
  exact hcarries

end FontisRemote.FileTransfer
