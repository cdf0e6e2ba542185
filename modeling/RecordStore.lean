import RecordStore.Command.InDirectory
import RecordStore.Main
import RecordStore.Proofs.Capacities
import RecordStore.Proofs.ChainLengths
import RecordStore.Proofs.CleanEnds
import RecordStore.Proofs.CommandCalls
import RecordStore.Proofs.Crashes
import RecordStore.Proofs.FailedOpenings
import RecordStore.Proofs.ForeignFiles
import RecordStore.Proofs.FramedWrites
import RecordStore.Proofs.GuardedPages
import RecordStore.Proofs.LiveScans
import RecordStore.Proofs.LiveSlots
import RecordStore.Proofs.NewSlots
import RecordStore.Proofs.PageCuts
import RecordStore.Proofs.PageFiles
import RecordStore.Proofs.RejectedFiles
import RecordStore.Proofs.RepeatedRecovery
import RecordStore.Proofs.Resolutions
import RecordStore.Proofs.ScanAgreement
import RecordStore.Proofs.WaitingLines
