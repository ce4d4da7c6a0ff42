import AdkAaf.Sharding.SeqLock.MutualExclusion
import AdkAaf.Sharding.SeqLock.Gate
import AdkAaf.Sharding.SeqLock.ParkedUnlock
import AdkAaf.Sharding.OutputOrder
import AdkAaf.Adk.ContMemory.SingleProducer
import AdkAaf.Adk.ContMemory.MultiProducer
import AdkAaf.Sharding.TrialFollower.TrialFirst
import AdkAaf.Adk.ShmContChannel.MemoryLayout
import AdkAaf.Adk.HashMap.Sequential
import AdkAaf.Adk.HashMap.OneMap
import AdkAaf.Adk.WwfRingBuffer.Crash
import AdkAaf.Adk.ByteBuffer.Stream
import AdkAaf.Adk.StreamBuffer.Contract
import AdkAaf.Adk.QueueVariant.Ownership
import AdkAaf.Adk.SequentialCache
import AdkAaf.Adk.ConstRateCtrl.Window
import AdkAaf.Recorder.FlushChain.Integrity
import AdkAaf.AmiBridge.Framing
import AdkAaf.AmiBridge.PeerRestart
import AdkAaf.AmiBridge.Ownership
import AdkAaf.AmiBridge.Session.Delivery
import AdkAaf.Adk.PipelineVariant.InOrder
import AdkAaf.Adk.MemoryPoolVariant.Disjoint
import AdkAaf.Adk.PipelineVariant.PauseProof
import AdkAaf.Adk.IoEngine.ReceiveBuffer
import AdkAaf.Adk.IoEngine.ZeroCopy
import AdkAaf.Adk.IoEngine.Corking
import AdkAaf.Adk.IoEngine.QuiescenceProof
import AdkAaf.Adk.IoEngine.ReleaseProof
import AdkAaf.Adk.InotifyWrapper.Consistency
import AdkAaf.Adk.LockFreeMsgQueue.ManagerProof
import AdkAaf.Adk.EncryptConfig.Store
import AdkAaf.Adk.ThreadPool.Safety
import AdkAaf.Adk.LockFreeMsgQueue.Mpsc.Recovery
import AdkAaf.Adk.RecordMsgBinaryV2
import AdkAaf.Adk.ContMemory.ShmManager
import AdkAaf.Sharding.ReorderPromptness
import AdkAaf.Adk.QueueVariant.Batch
import AdkAaf.Adk.UnboundedQueue.Clear
import AdkAaf.Adk.UnboundedQueue.Access
import AdkAaf.Adk.UnboundedStreamBuffer.BackPressure
import AdkAaf.Adk.HashMap.Layout
import AdkAaf.Adk.TokenBucket
import AdkAaf.Recorder.Placeholders
import AdkAaf.Recorder.RecordIterator
import AdkAaf.Recorder.HistHeader
import AdkAaf.Adk.ArrayQueue
import AdkAaf.AmiBridge.SessionFile
import AdkAaf.AmiBridge.RateControl
import AdkAaf.AmiBridge.Handshake
import AdkAaf.AmiBridge.WaitingLoops
import AdkAaf.Recorder.PutArea
import AdkAaf.Recorder.RecordDataTracker.Ending
import AdkAaf.Adk.BitMap
import AdkAaf.Adk.LeakyBucket
import AdkAaf.Adk.PipelineVariant.Idle
import AdkAaf.Adk.LockFreeMsgQueue.Connector
