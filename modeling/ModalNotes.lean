import ModalNotes.Bus
import ModalNotes.Main
import ModalNotes.Proofs.App.Trail
import ModalNotes.Proofs.App.Waiting
import ModalNotes.Proofs.Buffer.Rewind
import ModalNotes.Proofs.Buffer.Word
import ModalNotes.Proofs.Keymap.Parse
import ModalNotes.Proofs.Keymap.Press
import ModalNotes.Proofs.Link.Course
import ModalNotes.Proofs.Notebook.Link
import ModalNotes.Proofs.Notebook.Retry
import ModalNotes.Proofs.Notebook.Shared
import ModalNotes.Proofs.Notebook.Target
import ModalNotes.Proofs.Session.Apart
import ModalNotes.Proofs.Session.Column
import ModalNotes.Proofs.Session.Highlight
import ModalNotes.Proofs.Session.Hop
import ModalNotes.Proofs.Session.Line
import ModalNotes.Proofs.Session.Paste
import ModalNotes.Proofs.Session.Typing
